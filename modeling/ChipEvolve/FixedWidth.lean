import Mathlib.Data.List.Lex
import Mathlib.Order.Basic
import Mathlib.Tactic.Common
import Mathlib.Tactic.IntervalCases

/-!
# Numbers written with a fixed number of digits

Texts made of fields of fixed widths are ordered as their fields are, one after
the other, and numbers padded with zeros to one width are ordered as numbers.
-/

namespace FixedWidth

/-! ## Fields one after the other -/

section Append

variable {α : Type*} [LT α] {xs ys us vs : List α}

theorem append_lt_append_iff (h : xs.length = ys.length) :
    xs ++ us < ys ++ vs ↔ xs < ys ∨ xs = ys ∧ us < vs := by
  induction xs generalizing ys with
  | nil =>
      obtain rfl := List.eq_nil_of_length_eq_zero h.symm
      simp
  | cons x xs ih =>
      cases ys with
      | nil => cases h
      | cons y ys =>
          have htail := ih (Nat.succ.inj h)
          simp only [List.cons_append, List.cons_lt_cons_iff, htail, List.cons.injEq]
          tauto

end Append

/-! ## Digits -/

/-- In a mixed radix the leading part decides first. -/
theorem radix_lt_iff {a b r s k : ℕ} (hr : r < k) (hs : s < k) :
    a * k + r < b * k + s ↔ a < b ∨ a = b ∧ r < s := by
  rcases lt_trichotomy a b with hlt | rfl | hgt
  · have hstep : a * k + k ≤ b * k := by
      rw [← Nat.succ_mul]
      exact Nat.mul_le_mul_right k hlt
    refine ⟨fun _ ↦ .inl hlt, fun _ ↦ by omega⟩
  · constructor
    · intro h
      exact .inr ⟨rfl, by omega⟩
    · rintro (h | ⟨_, h⟩)
      · exact absurd h (lt_irrefl a)
      · omega
  · have hstep : b * k + k ≤ a * k := by
      rw [← Nat.succ_mul]
      exact Nat.mul_le_mul_right k hgt
    constructor
    · intro h
      omega
    · rintro (h | ⟨rfl, _⟩)
      · exact absurd h hgt.not_gt
      · exact absurd hgt (lt_irrefl a)

def digit (n : ℕ) : Char := Char.ofNat (48 + n)

/-- A number below `10 ^ width` with zeros in front. -/
def digits : ℕ → ℕ → List Char
  | 0, _ => []
  | width + 1, n => digit (n / 10 ^ width) :: digits width (n % 10 ^ width)

@[simp] theorem length_digits (width n : ℕ) : (digits width n).length = width := by
  induction width generalizing n with
  | zero => rfl
  | succ width ih => simp [digits, ih]

theorem digit_lt_digit_iff {m n : ℕ} (hm : m < 10) (hn : n < 10) :
    digit m < digit n ↔ m < n := by
  interval_cases m <;> interval_cases n <;> decide

theorem digit_inj {m n : ℕ} (hm : m < 10) (hn : n < 10) : digit m = digit n ↔ m = n := by
  interval_cases m <;> interval_cases n <;> decide

section Order

variable {width m n : ℕ}

theorem leading_lt (hn : n < 10 ^ (width + 1)) : n / 10 ^ width < 10 := by
  rw [pow_succ] at hn
  exact Nat.div_lt_of_lt_mul hn

theorem rest_lt (width n : ℕ) : n % 10 ^ width < 10 ^ width := Nat.mod_lt _ (by positivity)

theorem digits_inj (hm : m < 10 ^ width) (hn : n < 10 ^ width) :
    digits width m = digits width n ↔ m = n := by
  induction width generalizing m n with
  | zero =>
      have hm' : m = 0 := by simpa using hm
      have hn' : n = 0 := by simpa using hn
      simp [digits, hm', hn']
  | succ width ih =>
      have hm' := Nat.div_add_mod m (10 ^ width)
      have hn' := Nat.div_add_mod n (10 ^ width)
      rw [digits, digits, List.cons.injEq, digit_inj (leading_lt hm) (leading_lt hn),
        ih (rest_lt width m) (rest_lt width n)]
      constructor
      · rintro ⟨hleading, hrest⟩
        rw [← hm', ← hn', hleading, hrest]
      · rintro rfl
        exact ⟨rfl, rfl⟩

/-- Padded numbers are ordered as numbers. -/
theorem digits_lt_digits_iff (hm : m < 10 ^ width) (hn : n < 10 ^ width) :
    digits width m < digits width n ↔ m < n := by
  induction width generalizing m n with
  | zero =>
      have hm' : m = 0 := by simpa using hm
      have hn' : n = 0 := by simpa using hn
      simp [digits, hm', hn']
  | succ width ih =>
      have hradix := radix_lt_iff (a := m / 10 ^ width) (b := n / 10 ^ width)
        (rest_lt width m) (rest_lt width n)
      rw [Nat.div_add_mod', Nat.div_add_mod'] at hradix
      rw [digits, digits, List.cons_lt_cons_iff, digit_lt_digit_iff (leading_lt hm) (leading_lt hn),
        digit_inj (leading_lt hm) (leading_lt hn), ih (rest_lt width m) (rest_lt width n), hradix]

/-- A padded number in front decides first. -/
theorem digits_append_lt_iff (hm : m < 10 ^ width) (hn : n < 10 ^ width) {us vs : List Char} :
    digits width m ++ us < digits width n ++ vs ↔ m < n ∨ m = n ∧ us < vs := by
  rw [append_lt_append_iff (by simp), digits_lt_digits_iff hm hn, digits_inj hm hn]

end Order

end FixedWidth
