import Mathlib.Data.Finset.Card
import Mathlib.Data.List.Basic
import Mathlib.Logic.Relation
import Mathlib.Tactic.Common

/-!
# Closing a set under successors with a stack

The loop takes one element off the stack and puts every successor that it has
not seen into the result and onto the stack.  Each element enters the stack
once, so the loop ends as soon as the successors stay inside some finite set,
and what it returns is the set reached from the elements it started with.
-/

/-- What has been seen, and the part of it whose successors are still to be read. -/
structure Worklist (α : Type*) where
  result : Finset α
  pending : List α

namespace Worklist

variable {α : Type*} [DecidableEq α]

/-- `result = {root}; pending = [root]` -/
def start (root : α) : Worklist α := ⟨{root}, [root]⟩

/-- `if child not in result: result.add(child); pending.append(child)` -/
def see (w : Worklist α) (child : α) : Worklist α :=
  if child ∈ w.result then w else ⟨insert child w.result, child :: w.pending⟩

/-- `while pending: …`, for as many rounds as `fuel` allows. -/
def loop (succ : α → List α) : ℕ → Worklist α → Option (Finset α)
  | _, ⟨result, []⟩ => some result
  | 0, ⟨_, _ :: _⟩ => none
  | fuel + 1, ⟨result, next :: pending⟩ =>
      loop succ fuel ((succ next).foldl see ⟨result, pending⟩)

/-- One is a successor of the other. -/
def Edge (succ : α → List α) (a b : α) : Prop := b ∈ succ a

/-- What is reached from `root` over any number of successors. -/
def Reach (succ : α → List α) (root : α) : α → Prop :=
  Relation.ReflTransGen (Edge succ) root

variable {succ : α → List α} {root : α} {w : Worklist α} {everything : Finset α}

theorem mem_see {child x : α} : x ∈ (w.see child).result ↔ x = child ∨ x ∈ w.result := by
  unfold see
  split
  · rename_i hseen
    exact ⟨.inr, fun h ↦ h.elim (fun heq ↦ heq ▸ hseen) id⟩
  · exact Finset.mem_insert

theorem pending_see {child x : α} (h : x ∈ w.pending) : x ∈ (w.see child).pending := by
  unfold see
  split
  · exact h
  · exact List.mem_cons_of_mem _ h

theorem see_or {child x : α} (h : x ∈ (w.see child).pending) : x ∈ w.pending ∨ x = child := by
  unfold see at h
  split at h
  · exact .inl h
  · exact (List.mem_cons.mp h).symm

theorem mem_foldl_see {xs : List α} {x : α} :
    x ∈ (xs.foldl see w).result ↔ x ∈ xs ∨ x ∈ w.result := by
  induction xs generalizing w with
  | nil => simp
  | cons y xs ih =>
      rw [List.foldl_cons, ih, mem_see, List.mem_cons]
      tauto

theorem pending_foldl_see {xs : List α} {x : α} (h : x ∈ w.pending) :
    x ∈ (xs.foldl see w).pending := by
  induction xs generalizing w with
  | nil => exact h
  | cons y xs ih => exact ih (pending_see h)

/-- What is new to the result is on the stack. -/
theorem new_pending_foldl_see {xs : List α} {x : α} (h : x ∈ (xs.foldl see w).result)
    (hx : x ∉ w.result) : x ∈ (xs.foldl see w).pending := by
  induction xs generalizing w with
  | nil => exact absurd h hx
  | cons y xs ih =>
      by_cases hsee : x ∈ (w.see y).result
      · have hxy : x = y := (mem_see.mp hsee).resolve_right hx
        have hpushed : w.see y = ⟨insert y w.result, y :: w.pending⟩ := if_neg (hxy ▸ hx)
        have hmem : x ∈ (w.see y).pending := by
          rw [hpushed, hxy]
          exact List.mem_cons_self
        rw [List.foldl_cons]
        exact pending_foldl_see hmem
      · exact ih h hsee

theorem mem_pending_foldl_see {xs : List α} {x : α} (h : x ∈ (xs.foldl see w).pending) :
    x ∈ w.pending ∨ x ∈ xs := by
  induction xs generalizing w with
  | nil => exact .inl h
  | cons y xs ih =>
      rcases ih h with hsee | hxs
      · refine (see_or hsee).imp_right fun heq ↦ ?_
        rw [heq]
        exact List.mem_cons_self
      · exact .inr (List.mem_cons_of_mem _ hxs)

/-! ## Termination -/

/-- How many elements may still come onto the stack, and how many are on it. -/
def remaining (everything : Finset α) (w : Worklist α) : ℕ :=
  (everything \ w.result).card + w.pending.length

theorem remaining_see {child : α} (h : child ∈ everything) :
    (w.see child).remaining everything = w.remaining everything := by
  unfold see
  split
  · rfl
  · rename_i hnew
    have hmem : child ∈ everything \ w.result := Finset.mem_sdiff.mpr ⟨h, hnew⟩
    have hpos : 0 < (everything \ w.result).card := Finset.card_pos.mpr ⟨child, hmem⟩
    have hdrop : everything \ insert child w.result = (everything \ w.result).erase child := by
      ext x
      simp only [Finset.mem_sdiff, Finset.mem_insert, Finset.mem_erase, not_or]
      tauto
    simp only [remaining, hdrop, Finset.card_erase_of_mem hmem, List.length_cons]
    omega

theorem remaining_foldl_see {xs : List α} (h : ∀ x ∈ xs, x ∈ everything) :
    (xs.foldl see w).remaining everything = w.remaining everything := by
  induction xs generalizing w with
  | nil => rfl
  | cons y xs ih =>
      rw [List.foldl_cons, ih fun x hx ↦ h x (List.mem_cons_of_mem _ hx),
        remaining_see (h y List.mem_cons_self)]

/-- Each round takes one element off, so the loop ends. -/
theorem loop_isSome (hsucc : ∀ a, ∀ b ∈ succ a, b ∈ everything) {fuel : ℕ}
    (hfuel : w.remaining everything ≤ fuel) : ∃ s, loop succ fuel w = some s := by
  induction fuel generalizing w with
  | zero =>
      obtain ⟨result, pending⟩ := w
      cases pending with
      | nil => exact ⟨result, rfl⟩
      | cons x pending => simp [remaining] at hfuel
  | succ fuel ih =>
      obtain ⟨result, pending⟩ := w
      cases pending with
      | nil => exact ⟨result, rfl⟩
      | cons x pending =>
          refine ih ?_
          rw [remaining_foldl_see (hsucc x)]
          simp only [remaining, List.length_cons] at hfuel ⊢
          omega

/-! ## What has been read -/

/-- What has been read has its successors in the result, as far as `R` goes. -/
def Covers (R : α → α → Prop) (w : Worklist α) : Prop :=
  ∀ x ∈ w.result, x ∉ w.pending → ∀ y, R x y → y ∈ w.result

theorem covers_foldl_see {R : α → α → Prop} {result : Finset α} {next : α} {pending : List α}
    (h : Covers R ⟨result, next :: pending⟩) (hnext : ∀ y, R next y → y ∈ succ next) :
    Covers R ((succ next).foldl see ⟨result, pending⟩) := by
  intro x hx hpending y hy
  have hold : x ∈ result := by
    by_contra hnew
    exact hpending (new_pending_foldl_see hx hnew)
  by_cases heq : x = next
  · exact mem_foldl_see.mpr (.inl (hnext y (heq ▸ hy)))
  · have hbefore : x ∉ next :: pending := by
      intro hmem
      rcases List.mem_cons.mp hmem with hmem | hmem
      · exact heq hmem
      · exact hpending (pending_foldl_see hmem)
    exact mem_foldl_see.mpr (.inr (h x hold hbefore y hy))

/-! ## What the loop returns -/

/-- Everything seen is reached, and only what is on the stack has successors that were not seen. -/
structure Closing (succ : α → List α) (root : α) (w : Worklist α) : Prop where
  root_mem : root ∈ w.result
  pending_mem : ∀ x ∈ w.pending, x ∈ w.result
  reached : ∀ x ∈ w.result, Reach succ root x
  closed : ∀ x ∈ w.result, x ∉ w.pending → ∀ y ∈ succ x, y ∈ w.result

omit [DecidableEq α] in
theorem start_closing (succ : α → List α) (root : α) : Closing succ root (start root) where
  root_mem := by simp [start]
  pending_mem := by simp [start]
  reached := by
    intro x hx
    obtain rfl : x = root := by simpa [start] using hx
    exact .refl
  closed := by
    intro x hx hpending
    simp only [start, Finset.mem_singleton, List.mem_singleton] at hx hpending
    exact absurd hx hpending

theorem Closing.round {result : Finset α} {next : α} {pending : List α}
    (h : Closing succ root ⟨result, next :: pending⟩) :
    Closing succ root ((succ next).foldl see ⟨result, pending⟩) where
  root_mem := mem_foldl_see.mpr (.inr h.root_mem)
  pending_mem := by
    intro x hx
    rcases mem_pending_foldl_see hx with hold | hnew
    · exact mem_foldl_see.mpr (.inr (h.pending_mem x (List.mem_cons_of_mem _ hold)))
    · exact mem_foldl_see.mpr (.inl hnew)
  reached := by
    intro x hx
    rcases mem_foldl_see.mp hx with hnew | hold
    · exact (h.reached next (h.pending_mem next List.mem_cons_self)).tail hnew
    · exact h.reached x hold
  closed := covers_foldl_see (R := Edge succ) h.closed fun _ hy ↦ hy

omit [DecidableEq α] in
theorem Closing.mem_iff {s : Finset α} (h : Closing succ root ⟨s, []⟩) {x : α} :
    x ∈ s ↔ Reach succ root x := by
  refine ⟨h.reached x, fun hreach ↦ ?_⟩
  induction hreach with
  | refl => exact h.root_mem
  | tail _ hedge ih => exact h.closed _ ih List.not_mem_nil _ hedge

theorem Closing.loop {fuel : ℕ} {s : Finset α} (h : Closing succ root w)
    (hloop : Worklist.loop succ fuel w = some s) : ∀ x, x ∈ s ↔ Reach succ root x := by
  induction fuel generalizing w with
  | zero =>
      obtain ⟨result, pending⟩ := w
      cases pending with
      | nil =>
          obtain rfl : result = s := by simpa [Worklist.loop] using hloop
          exact fun _ ↦ h.mem_iff
      | cons x pending => simp [Worklist.loop] at hloop
  | succ fuel ih =>
      obtain ⟨result, pending⟩ := w
      cases pending with
      | nil =>
          obtain rfl : result = s := by simpa [Worklist.loop] using hloop
          exact fun _ ↦ h.mem_iff
      | cons x pending => exact ih h.round hloop

/-- The loop returns what is reached from its root, and it returns. -/
theorem loop_start (hsucc : ∀ a, ∀ b ∈ succ a, b ∈ everything) (hroot : root ∈ everything) :
    ∃ s, (∀ fuel, everything.card ≤ fuel → loop succ fuel (start root) = some s) ∧
      ∀ x, x ∈ s ↔ Reach succ root x := by
  have hremaining : (start root).remaining everything = everything.card := by
    have hpos : 0 < everything.card := Finset.card_pos.mpr ⟨root, hroot⟩
    have hsdiff : everything \ {root} = everything.erase root := Finset.sdiff_singleton_eq_erase _ _
    simp only [remaining, start, hsdiff, Finset.card_erase_of_mem hroot, List.length_singleton]
    omega
  have hends : ∀ fuel, everything.card ≤ fuel → ∃ s, loop succ fuel (start root) = some s :=
    fun fuel hfuel ↦ loop_isSome hsucc (hremaining ▸ hfuel)
  obtain ⟨s, hs⟩ := hends _ le_rfl
  have hmem := (start_closing succ root).loop hs
  refine ⟨s, fun fuel hfuel ↦ ?_, hmem⟩
  obtain ⟨t, ht⟩ := hends fuel hfuel
  have hsame : t = s := by
    ext x
    rw [hmem, (start_closing succ root).loop ht]
  rw [ht, hsame]

/-! ## Successors that change between the rounds -/

/-- One round of the loop, with the successors as they are then. -/
def turn (succ : α → List α) (w : Worklist α) : Option (Worklist α) :=
  match w.pending with
  | [] => none
  | next :: pending => some ((succ next).foldl see ⟨w.result, pending⟩)

section Turn

variable {R : α → α → Prop} {w' : Worklist α}

omit [DecidableEq α] in
theorem covers_start (R : α → α → Prop) (root : α) : Covers R (start root) := by
  intro x hx hpending
  simp only [start, Finset.mem_singleton, List.mem_singleton] at hx hpending
  exact absurd hx hpending

omit [DecidableEq α] in
theorem Covers.mono {S : α → α → Prop} (h : Covers R w) (hsub : ∀ x y, S x y → R x y) :
    Covers S w :=
  fun x hx hpending y hy ↦ h x hx hpending y (hsub x y hy)

/-- Edges that are there at every round are followed. -/
theorem Covers.turn (h : Covers R w) (hsucc : ∀ x y, R x y → y ∈ succ x)
    (hturn : w.turn succ = some w') : Covers R w' := by
  obtain ⟨result, pending⟩ := w
  cases pending with
  | nil => cases hturn
  | cons next pending =>
      obtain rfl := Option.some.inj hturn
      exact covers_foldl_see h (hsucc next)

theorem mem_result_turn (hturn : w.turn succ = some w') {x : α} (hx : x ∈ w.result) :
    x ∈ w'.result := by
  obtain ⟨result, pending⟩ := w
  cases pending with
  | nil => cases hturn
  | cons next pending =>
      obtain rfl := Option.some.inj hturn
      exact mem_foldl_see.mpr (.inr hx)

theorem result_turn (hturn : w.turn succ = some w') {x : α} (hx : x ∈ w'.result) :
    x ∈ w.result ∨ ∃ y, x ∈ succ y := by
  obtain ⟨result, pending⟩ := w
  cases pending with
  | nil => cases hturn
  | cons next pending =>
      obtain rfl := Option.some.inj hturn
      exact (mem_foldl_see.mp hx).symm.imp_right fun hnew ↦ ⟨next, hnew⟩

theorem pending_of_turn (hturn : w.turn succ = none) : w.pending = [] := by
  obtain ⟨result, pending⟩ := w
  cases pending with
  | nil => rfl
  | cons next pending => cases hturn

omit [DecidableEq α] in
/-- When nothing is left to read, all that the root leads to has been seen. -/
theorem Covers.mem_of_reached (h : Covers R w) (hdone : w.pending = []) (hroot : root ∈ w.result)
    {x : α} (hx : Relation.ReflTransGen R root x) : x ∈ w.result := by
  induction hx with
  | refl => exact hroot
  | tail _ hedge ih =>
      refine h _ ih ?_ _ hedge
      rw [hdone]
      exact List.not_mem_nil

end Turn

end Worklist
