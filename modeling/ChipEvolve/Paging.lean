import Mathlib.Data.List.Flatten
import Mathlib.Data.List.Sort
import Mathlib.Tactic.Common

/-!
# Reading a list in pages

A query that sorts and filters is read page by page, each page from the number of
rows read before.  Sorting is stable, so a row that stays keeps its place among
those that stay; in a list that shrinks, a row that goes moves everything behind it
one place towards the rows already read.
-/

namespace Paging

variable {α : Type*} {r : α → α → Prop} [DecidableRel r] {p : α → Bool} {l : List α} {m n : ℕ}

/-! ## Sorting and filtering -/

theorem filter_orderedInsert [IsTrans α r] {a : α} (hl : l.Pairwise r) :
    (l.orderedInsert r a).filter p =
      if p a then (l.filter p).orderedInsert r a else l.filter p := by
  induction l with
  | nil => cases hp : p a <;> simp [hp]
  | cons b l ih =>
      obtain ⟨hb, hl⟩ := List.pairwise_cons.mp hl
      have ih := ih hl
      by_cases hab : r a b
      · rw [List.orderedInsert_cons_of_le r l hab]
        split
        · rename_i hp
          rw [List.filter_cons_of_pos hp]
          cases hfilter : (b :: l).filter p with
          | nil => rfl
          | cons c rest =>
              refine (List.orderedInsert_cons_of_le r rest ?_).symm
              have hc : c ∈ b :: l := List.mem_of_mem_filter (hfilter ▸ List.mem_cons_self)
              rcases List.mem_cons.mp hc with rfl | hc
              · exact hab
              · exact IsTrans.trans a b c hab (hb c hc)
        · rename_i hp
          rw [List.filter_cons_of_neg hp]
      · rw [List.orderedInsert_of_not_le r l hab]
        cases hpb : p b <;> cases hpa : p a <;> simp_all

/-- The rows that stay keep their order. -/
theorem filter_insertionSort [IsTrans α r] [Std.Total r] :
    (l.insertionSort r).filter p = (l.filter p).insertionSort r := by
  induction l with
  | nil => rfl
  | cons a l ih =>
      rw [List.insertionSort_cons, filter_orderedInsert (List.pairwise_insertionSort r l), ih]
      cases hp : p a <;> simp [hp]

/-! ## The loop of a page -/

/-- The rows that `p` keeps, without the first `offset` of them and at most `limit`, by a loop
that counts the rows it has skipped and stops at the last one it needs. -/
def page (p : α → Bool) (offset : ℕ) : ℕ → ℕ → List α → List α
  | _, _, [] => []
  | limit, matched, a :: rows =>
      if !p a then page p offset limit matched rows
      else if matched < offset then page p offset limit (matched + 1) rows
      else if limit ≤ 1 then [a]
      else a :: page p offset (limit - 1) matched rows

theorem page_eq {offset limit matched : ℕ} (hlimit : 0 < limit) (hmatched : matched ≤ offset) :
    page p offset limit matched l = ((l.filter p).drop (offset - matched)).take limit := by
  induction l generalizing limit matched with
  | nil => simp [page]
  | cons a rows ih =>
      unfold page
      by_cases hp : p a = true
      · rw [List.filter_cons_of_pos hp]
        simp only [hp, Bool.not_true, Bool.false_eq_true, if_false]
        by_cases hskip : matched < offset
        · obtain ⟨k, hk⟩ : ∃ k, offset - matched = k + 1 := ⟨offset - matched - 1, by omega⟩
          rw [if_pos hskip, ih hlimit hskip, hk, List.drop_succ_cons]
          rw [show offset - (matched + 1) = k by omega]
        · have hnone : offset - matched = 0 := by omega
          rw [if_neg hskip, hnone, List.drop_zero]
          obtain ⟨n, rfl⟩ : ∃ n, limit = n + 1 := ⟨limit - 1, by omega⟩
          rw [List.take_succ_cons]
          cases n with
          | zero => simp
          | succ n =>
              rw [if_neg (by omega), Nat.add_sub_cancel, ih n.succ_pos hmatched, hnone,
                List.drop_zero]
      · simp only [Bool.not_eq_true] at hp
        rw [List.filter_cons_of_neg (by simp [hp])]
        simp only [hp, Bool.not_false, if_true]
        exact ih hlimit hmatched

/-- The number of rows that `p` keeps, page by page from an offset on. -/
def countPages (p : α → Bool) (size : ℕ) (hsize : 0 < size) (l : List α) (offset : ℕ) : ℕ :=
  let found := (page p offset size 0 l).length
  if found < size then found else found + countPages p size hsize l (offset + found)
termination_by l.length - offset
decreasing_by
  rename_i hfull
  have hpage := congrArg List.length (page_eq (l := l) (p := p) hsize offset.zero_le)
  have hfilter := List.length_filter_le p l
  rw [List.length_take, List.length_drop] at hpage
  omega

theorem countPages_eq {size offset : ℕ} (hsize : 0 < size) :
    countPages p size hsize l offset = l.countP p - offset := by
  induction hk : l.length - offset using Nat.strong_induction_on generalizing offset with
  | _ k ih =>
      have hpage := congrArg List.length (page_eq (l := l) (p := p) hsize offset.zero_le)
      have hfilter := List.length_filter_le p l
      rw [List.length_take, List.length_drop] at hpage
      rw [List.countP_eq_length_filter]
      unfold countPages
      dsimp only
      split
      · omega
      · rw [ih _ (by omega) rfl, List.countP_eq_length_filter]
        omega

/-! ## Page after page -/

theorem flatten_pages (n k : ℕ) :
    ((List.range k).map fun i ↦ (l.drop (i * n)).take n).flatten = l.take (k * n) := by
  induction k with
  | zero => simp
  | succ k ih =>
      rw [List.range_succ, List.map_append, List.flatten_append, ih, Nat.succ_mul, List.take_add]
      simp

/-- What a reader is given who asks on from `s` as long as each answer names where to go on. -/
inductive Reads {σ ρ : Type*} (answers : σ → ρ → Prop) (next : ρ → Option σ) : σ → List ρ → Prop
  | last {s : σ} {a : ρ} (hanswer : answers s a) (hnext : next a = none) :
      Reads answers next s [a]
  | more {s s' : σ} {a : ρ} {rest : List ρ} (hanswer : answers s a) (hnext : next a = some s')
      (hrest : Reads answers next s' rest) : Reads answers next s (a :: rest)

/-! ## Several lists under one offset -/

section Slices

variable {ls : List (List α)} {o : ℕ}

/-- The same place of each list. -/
def slices (n o : ℕ) (ls : List (List α)) : List α := ls.flatMap fun l ↦ (l.drop o).take n

/-- What of each list is behind that place. -/
def rests (o : ℕ) (ls : List (List α)) : List α := ls.flatMap fun l ↦ l.drop o

/-- One page holds all the lists, or there is only one that has something. -/
def Fits (n : ℕ) (ls : List (List α)) : Prop :=
  ls.flatten.length ≤ n ∨ (ls.filter fun l ↦ !l.isEmpty).length ≤ 1

theorem rests_zero : rests 0 ls = ls.flatten := by
  simp [rests, List.flatMap_id']

theorem length_rests (n o : ℕ) (ls : List (List α)) :
    (rests o ls).length = (slices n o ls).length + (rests (o + n) ls).length := by
  induction ls with
  | nil => rfl
  | cons l ls ih =>
      unfold rests slices at ih ⊢
      simp only [List.flatMap_cons, List.length_append, List.length_take, List.length_drop]
      omega

theorem slices_eq_nil_iff (hn : 0 < n) : slices n o ls = [] ↔ rests o ls = [] := by
  unfold slices rests
  rw [List.flatMap_eq_nil_iff, List.flatMap_eq_nil_iff]
  refine forall₂_congr fun l _ ↦ ?_
  rw [List.take_eq_nil_iff]
  exact or_iff_right hn.ne'

theorem flatMap_nonempty {g : List α → List α} (hg : g [] = []) :
    ls.flatMap g = (ls.filter fun l ↦ !l.isEmpty).flatMap g := by
  induction ls with
  | nil => rfl
  | cons l ls ih => cases l <;> simp [hg, ih]

theorem rests_nonempty : rests o ls = rests o (ls.filter fun l ↦ !l.isEmpty) :=
  flatMap_nonempty List.drop_nil

theorem slices_nonempty : slices n o ls = slices n o (ls.filter fun l ↦ !l.isEmpty) :=
  flatMap_nonempty (by rw [List.drop_nil, List.take_nil])

theorem nonempty_eq_nil (h : rests 0 ls = []) : (ls.filter fun l ↦ !l.isEmpty) = [] := by
  rw [rests_zero, List.flatten_eq_nil_iff] at h
  exact List.filter_eq_nil_iff.mpr fun l hl ↦ by simp [h l hl]

/-- A page and what is behind it, one after the other, are what was behind the page before. -/
theorem rests_eq_append (h : Fits n ls) (o : ℕ) :
    rests o ls = slices n o ls ++ rests (o + n) ls := by
  rcases h with hall | hone
  · have hshort : ∀ l ∈ ls, l.length ≤ n := fun l hl ↦
      (List.sublist_flatten_of_mem hl).length_le.trans hall
    have hnone : rests (o + n) ls = [] := by
      refine List.flatMap_eq_nil_iff.mpr fun l hl ↦ List.drop_eq_nil_of_le ?_
      exact (hshort l hl).trans (Nat.le_add_left n o)
    rw [hnone, List.append_nil]
    refine List.flatMap_congr fun l hl ↦ (List.take_of_length_le ?_).symm
    rw [List.length_drop]
    exact (Nat.sub_le _ _).trans (hshort l hl)
  · rw [rests_nonempty, slices_nonempty, @rests_nonempty _ _ (o + n)]
    generalize (ls.filter fun l ↦ !l.isEmpty) = found at hone ⊢
    rcases found with _ | ⟨l, _ | _⟩
    · rfl
    · simp only [rests, slices, List.flatMap_singleton]
      rw [← List.drop_drop, List.take_append_drop]
    · simp at hone

/-- A page that starts at the beginning is the largest. -/
theorem fits_of_length_le (hn : 0 < n) (h : (slices n 0 ls).length ≤ n) : Fits n ls := by
  by_cases hshort : ∀ l ∈ ls, l.length ≤ n
  · left
    have hall : slices n 0 ls = ls.flatten := by
      rw [← rests_zero]
      exact List.flatMap_congr fun l hl ↦ List.take_of_length_le (hshort l hl)
    rwa [hall] at h
  · right
    push Not at hshort
    obtain ⟨l, hl, hlong⟩ := hshort
    obtain ⟨before, after, rfl⟩ := List.append_of_mem hl
    have hsplit : (slices n 0 (before ++ l :: after)).length =
        (slices n 0 before).length + (n + (slices n 0 after).length) := by
      simp only [slices, List.flatMap_append, List.flatMap_cons, List.length_append,
        List.length_take, List.length_drop]
      omega
    have hbefore : slices n 0 before = [] := List.length_eq_zero_iff.mp (by omega)
    have hafter : slices n 0 after = [] := List.length_eq_zero_iff.mp (by omega)
    rw [List.filter_append, List.filter_cons,
      nonempty_eq_nil ((slices_eq_nil_iff hn).mp hbefore),
      nonempty_eq_nil ((slices_eq_nil_iff hn).mp hafter)]
    split <;> simp

theorem length_slices_le (h : Fits n ls) (o : ℕ) : (slices n o ls).length ≤ n := by
  rcases h with hall | hone
  · have hfirst := length_rests o 0 ls
    have hpage := length_rests n o ls
    rw [rests_zero, Nat.zero_add] at hfirst
    omega
  · rw [slices_nonempty]
    generalize (ls.filter fun l ↦ !l.isEmpty) = found at hone ⊢
    rcases found with _ | ⟨l, _ | _⟩
    · exact Nat.zero_le n
    · simp only [slices, List.flatMap_singleton]
      exact List.length_take_le _ _
    · simp at hone

end Slices

/-! ## Each item once -/

section Once

variable {β : Type*} {g : α → List β}

theorem length_flatMap_filter_le (g : α → List β) (q : α → Bool) (l : List α) :
    ((l.filter q).flatMap g).length ≤ (l.flatMap g).length :=
  (List.filter_sublist.flatMap g).length_le

variable [DecidableEq α]

theorem flatMap_without {a : α} (h : g a = []) (l : List α) :
    (l.filter fun b ↦ !b == a).flatMap g = l.flatMap g := by
  induction l with
  | nil => rfl
  | cons b l ih =>
      by_cases hb : b = a
      · simp [hb, h, ih]
      · simp [hb, ih]

theorem length_flatMap_eraseDups_le (g : α → List β) (l : List α) :
    (l.eraseDups.flatMap g).length ≤ (l.flatMap g).length := by
  induction hk : l.length using Nat.strong_induction_on generalizing l with
  | _ k ih =>
      cases l with
      | nil => simp
      | cons a l =>
          have hrest := List.length_filter_le (fun b ↦ !b == a) l
          have hwithout := length_flatMap_filter_le g (fun b ↦ !b == a) l
          rw [List.eraseDups_cons, List.flatMap_cons, List.flatMap_cons, List.length_append,
            List.length_append]
          exact Nat.add_le_add_left ((ih _ (by rw [← hk]; exact Nat.lt_succ_of_le hrest) _
            rfl).trans hwithout) _

/-- Taking each item once loses nothing exactly when no item with something is there twice. -/
theorem flatMap_eraseDups_eq_iff {l : List α} : l.eraseDups.flatMap g = l.flatMap g ↔
    (l.filter fun a ↦ !(g a).isEmpty).Nodup := by
  induction hk : l.length using Nat.strong_induction_on generalizing l with
  | _ k ih =>
      cases l with
      | nil => simp
      | cons a l =>
          have hlt : (l.filter fun b ↦ !b == a).length < k := by
            rw [← hk]
            exact Nat.lt_succ_of_le (List.length_filter_le _ l)
          rw [List.eraseDups_cons, List.flatMap_cons, List.flatMap_cons]
          by_cases ha : g a = []
          · have hfilter : (l.filter fun b ↦ !b == a).filter (fun b ↦ !(g b).isEmpty) =
                l.filter fun b ↦ !(g b).isEmpty := by
              rw [List.filter_filter]
              refine List.filter_congr fun b _ ↦ ?_
              by_cases hb : b = a <;> simp [hb, ha]
            rw [ha, List.nil_append, List.nil_append, ← flatMap_without ha l, ih _ hlt rfl, hfilter,
              List.filter_cons_of_neg (by simp [ha])]
          · rw [List.append_cancel_left_eq, List.filter_cons_of_pos (by simp [ha]),
              List.nodup_cons, List.mem_filter]
            by_cases hmem : a ∈ l
            · refine iff_of_false (fun heq ↦ ?_) fun h ↦ h.1 ⟨hmem, by simp [ha]⟩
              obtain ⟨before, after, rfl⟩ := List.append_of_mem hmem
              have hle := length_flatMap_eraseDups_le g
                ((before ++ a :: after).filter fun b ↦ !b == a)
              have hpos := List.length_pos_iff.mpr ha
              have hbefore := length_flatMap_filter_le g (fun b ↦ !b == a) before
              have hafter := length_flatMap_filter_le g (fun b ↦ !b == a) after
              rw [heq] at hle
              simp only [List.filter_append, List.filter_cons, beq_self_eq_true, Bool.not_true,
                Bool.false_eq_true, if_false, List.flatMap_append, List.flatMap_cons,
                List.length_append] at hle
              omega
            · have hsame : (l.filter fun b ↦ !b == a) = l := by
                refine List.filter_eq_self.mpr fun b hb ↦ ?_
                have hne : b ≠ a := fun heq ↦ hmem (heq ▸ hb)
                simp [hne]
              rw [hsame] at hlt ⊢
              rw [ih _ hlt rfl]
              simp [hmem]

end Once

/-! ## What a page misses -/

/-- When one of the first `n` rows has gone, the row behind them is on no later page. -/
theorem drop_filter_sublist (hgone : ∃ a ∈ l.take n, p a = false) (hmn : n ≤ m) :
    ((l.filter p).drop m).Sublist ((l.drop (n + 1)).filter p) := by
  have hshort : ((l.take n).filter p).length < (l.take n).length := by
    refine List.length_filter_lt_length_iff_exists.mpr ?_
    simpa using hgone
  have hn : (l.take n).length ≤ n := List.length_take_le n l
  obtain ⟨k, hk⟩ : ∃ k, m - ((l.take n).filter p).length = k + 1 :=
    ⟨m - ((l.take n).filter p).length - 1, by omega⟩
  have hsplit : l.filter p = (l.take n).filter p ++ (l.drop n).filter p := by
    rw [← List.filter_append, List.take_append_drop]
  rw [hsplit, List.drop_append, List.drop_eq_nil_of_le (by omega), List.nil_append, hk]
  rw [Nat.add_comm k 1, ← List.drop_drop, List.drop_one, ← List.tail_drop]
  refine (List.drop_sublist k _).trans ?_
  cases l.drop n with
  | nil => simp
  | cons x rest => cases hx : p x <;> simp [hx, List.tail_sublist]

/-- Cutting a list before it is filtered gives as many as cutting it afterwards, unless the cut
takes a row that goes and leaves one that stays. -/
theorem length_filter_take_eq_iff :
    ((l.take n).filter p).length = ((l.filter p).take n).length ↔
      (∀ a ∈ l.take n, p a = true) ∨ ∀ a ∈ l.drop n, p a = false := by
  have hsplit : (l.filter p).length =
      ((l.take n).filter p).length + ((l.drop n).filter p).length := by
    rw [← List.length_append, ← List.filter_append, List.take_append_drop]
  have hshort := List.length_filter_le p (l.take n)
  have hall : ((l.take n).filter p).length = (l.take n).length ↔ ∀ a ∈ l.take n, p a = true :=
    List.length_filter_eq_length_iff
  have hnone : ((l.drop n).filter p).length = 0 ↔ ∀ a ∈ l.drop n, p a = false := by
    simp [List.length_eq_zero_iff]
  have hrest := List.length_filter_le p (l.drop n)
  rw [← hall, ← hnone]
  rw [List.length_take] at hshort ⊢
  rw [List.length_drop] at hrest
  rw [List.length_take, hsplit]
  omega

theorem filter_take_isPrefix : (l.take n).filter p <+: l.filter p :=
  (List.take_prefix n l).filter p

/-- The rows that stay among the first `n` are the first `n` rows that stay. -/
theorem filter_take_eq_iff : (l.take n).filter p = (l.filter p).take n ↔
    (∀ a ∈ l.take n, p a = true) ∨ ∀ a ∈ l.drop n, p a = false := by
  rw [← length_filter_take_eq_iff]
  refine ⟨congrArg List.length, fun hlength ↦ ?_⟩
  exact (List.prefix_of_prefix_length_le filter_take_isPrefix (List.take_prefix n _)
    hlength.le).eq_of_length hlength

/-! ## Reading on in what changes -/

section Reading

variable {k : ℕ} {len : ℕ → ℕ} {t : ℕ → ℕ}

/-- How far one has come after reads of at most `k` items, when there are `len n` items at the
read `n`. -/
def reached (k : ℕ) (len : ℕ → ℕ) : ℕ → ℕ
  | 0 => 0
  | n + 1 => reached k len n + min k (len n - reached k len n)

/-- Marks that can be reached: each read goes on from one to the next, which is not farther than a
read takes, nor beyond what is there at that read. -/
structure Marks (k : ℕ) (len : ℕ → ℕ) (t : ℕ → ℕ) : Prop where
  start : t 0 = 0
  near : ∀ n, t (n + 1) ≤ t n + k
  inside : ∀ n, t (n + 1) ≤ max (t n) (len n)

theorem reached_succ (k : ℕ) (len : ℕ → ℕ) (n : ℕ) :
    reached k len (n + 1) = reached k len n + min k (len n - reached k len n) := rfl

theorem reached_le_succ (k : ℕ) (len : ℕ → ℕ) (n : ℕ) : reached k len n ≤ reached k len (n + 1) :=
  Nat.le_add_right _ _

theorem marks_reached (k : ℕ) (len : ℕ → ℕ) : Marks k len (reached k len) := by
  refine ⟨rfl, fun n ↦ ?_, fun n ↦ ?_⟩ <;> rw [reached_succ] <;> omega

/-- Nobody gets farther than who reads as much as there is. -/
theorem Marks.le_reached (h : Marks k len t) (n : ℕ) : t n ≤ reached k len n := by
  induction n with
  | zero => exact h.start.le
  | succ n ih =>
      have hnear := h.near n
      have hinside := h.inside n
      rw [reached_succ]
      omega

theorem exists_le_reached_iff {size : ℕ} :
    (∃ n, size ≤ reached k len (n + 1)) ↔ ∃ t, Marks k len t ∧ ∃ n, size ≤ t n := by
  constructor
  · rintro ⟨n, hn⟩
    exact ⟨_, marks_reached k len, _, hn⟩
  · rintro ⟨t, hmarks, n, hn⟩
    exact ⟨n, hn.trans ((hmarks.le_reached n).trans (reached_le_succ k len n))⟩

end Reading

end Paging
