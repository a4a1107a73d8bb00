import Mathlib.Algebra.Order.Ring.Rat
import Mathlib.Data.Int.Log
import Mathlib.Data.Rat.Floor
import Mathlib.Tactic.Linarith
import Mathlib.Tactic.NormNum

/-!
# Binary floating-point numbers

The finite numbers of a binary format, as the rationals they are, and rounding
to the nearest of them, with ties to the one whose last digit is even.  Rounding
leaves the numbers of the format alone and keeps the order of what it rounds.
-/

namespace FloatingPoint

/-! ## The nearest integer -/

/-- The nearest integer, and of two that are equally near the even one. -/
def roundEven (x : ℚ) : ℤ :=
  if x - x.floor < 1 / 2 then x.floor
  else if 1 / 2 < x - x.floor then x.floor + 1
  else if x.floor % 2 = 0 then x.floor
  else x.floor + 1

theorem roundEven_intCast (k : ℤ) : roundEven k = k := by
  simp [roundEven]

theorem floor_le_roundEven (x : ℚ) : x.floor ≤ roundEven x := by
  unfold roundEven
  split_ifs <;> omega

theorem roundEven_le_floor (x : ℚ) : roundEven x ≤ x.floor + 1 := by
  unfold roundEven
  split_ifs <;> omega

theorem roundEven_mono {x y : ℚ} (h : x ≤ y) : roundEven x ≤ roundEven y := by
  have hfloor : x.floor ≤ y.floor := Rat.floor_monotone h
  rcases hfloor.lt_or_eq with hlt | heq
  · exact (roundEven_le_floor x).trans ((Int.add_one_le_of_lt hlt).trans (floor_le_roundEven y))
  · -- between the same two integers the rests are compared with one half
    unfold roundEven
    rw [heq]
    split_ifs <;> first | omega | linarith

/-! ## Formats -/

/-- The significant digits of a format, the exponent below which no digit stands,
and the exponent of the power of two that no number of it reaches. -/
structure Format where
  precision : ℕ
  bottom : ℤ
  top : ℤ
  precision_pos : 0 < precision

/-- The numbers of IEEE 754 with 64 bits. -/
def binary64 : Format := ⟨53, -1074, 1024, by decide⟩

namespace Format

variable {f : Format} {x y : ℚ}

/-- The exponent of the last digit a number may have. -/
def place (f : Format) (x : ℚ) : ℤ := max (Int.log 2 |x| + 1 - f.precision) f.bottom

/-- The nearest number with no digit behind the last place. -/
def nearest (f : Format) (x : ℚ) : ℚ := roundEven (x / 2 ^ f.place x) * 2 ^ f.place x

theorem two_zpow_pos (e : ℤ) : (0 : ℚ) < 2 ^ e := zpow_pos two_pos e

theorem le_nearest {k : ℤ} (h : k * 2 ^ f.place x ≤ x) : k * 2 ^ f.place x ≤ f.nearest x := by
  have hle : k ≤ roundEven (x / 2 ^ f.place x) := by
    rw [← roundEven_intCast k]
    exact roundEven_mono ((le_div_iff₀ (two_zpow_pos _)).mpr h)
  exact mul_le_mul_of_nonneg_right (Int.cast_le.mpr hle) (two_zpow_pos _).le

theorem nearest_le {k : ℤ} (h : x ≤ k * 2 ^ f.place x) : f.nearest x ≤ k * 2 ^ f.place x := by
  have hle : roundEven (x / 2 ^ f.place x) ≤ k := by
    rw [← roundEven_intCast k]
    exact roundEven_mono ((div_le_iff₀ (two_zpow_pos _)).mpr h)
  exact mul_le_mul_of_nonneg_right (Int.cast_le.mpr hle) (two_zpow_pos _).le

/-- A power of two at or above a place is a whole number of that place. -/
theorem two_zpow_eq {e place : ℤ} (h : place ≤ e) :
    (2 : ℚ) ^ e = ((2 ^ (e - place).toNat : ℤ) : ℚ) * 2 ^ place := by
  have hnat : ((e - place).toNat : ℤ) = e - place := Int.toNat_of_nonneg (sub_nonneg.mpr h)
  push_cast
  rw [← zpow_natCast, hnat, ← zpow_add₀ two_ne_zero, sub_add_cancel]

theorem place_mono (hx : 0 < x) (h : x ≤ y) : f.place x ≤ f.place y := by
  unfold place
  rw [abs_of_pos hx, abs_of_pos (hx.trans_le h)]
  have hlog : Int.log 2 x ≤ Int.log 2 y := Int.log_mono_right hx h
  omega

/-- Rounding keeps the order: two numbers with one last place are compared as integers,
and between two with different ones lies a power of two. -/
theorem nearest_mono (hx : 0 ≤ x) (h : x ≤ y) : f.nearest x ≤ f.nearest y := by
  rcases hx.eq_or_lt with rfl | hx
  · have hzero : f.nearest 0 = 0 := by simpa [nearest] using Or.inl (roundEven_intCast 0)
    have hpos : ((0 : ℤ) : ℚ) * 2 ^ f.place y ≤ f.nearest y := le_nearest (by simpa using h)
    rw [hzero]
    simpa using hpos
  have hy : 0 < y := hx.trans_le h
  rcases (place_mono (f := f) hx h).lt_or_eq with hlt | heq
  · have hplace : f.place y = Int.log 2 y + 1 - f.precision := by
      have hbottom : f.bottom ≤ f.place x := le_max_right _ _
      unfold place at hlt ⊢
      rw [abs_of_pos hy] at hlt ⊢
      omega
    have hlog : Int.log 2 x < Int.log 2 y := by
      have hle : Int.log 2 x + 1 - f.precision ≤ f.place x := by
        unfold place
        rw [abs_of_pos hx]
        exact le_max_left _ _
      omega
    have hprecision := f.precision_pos
    have hbelow : x ≤ 2 ^ Int.log 2 y := ((Int.lt_zpow_iff_log_lt one_lt_two hx).mpr hlog).le
    have habove : (2 : ℚ) ^ Int.log 2 y ≤ y := Int.zpow_log_le_self one_lt_two hy
    calc
      f.nearest x ≤ 2 ^ Int.log 2 y := by
        rw [two_zpow_eq (show f.place x ≤ Int.log 2 y by omega)] at hbelow ⊢
        exact nearest_le hbelow
      _ ≤ f.nearest y := by
        rw [two_zpow_eq (show f.place y ≤ Int.log 2 y by omega)] at habove ⊢
        exact le_nearest habove
  · unfold nearest
    rw [heq]
    refine mul_le_mul_of_nonneg_right (Int.cast_le.mpr (roundEven_mono ?_)) (two_zpow_pos _).le
    exact div_le_div_of_nonneg_right h (two_zpow_pos _).le

/-- A number with at most the digits of the format keeps them. -/
theorem nearest_scaled {k e : ℤ} (he : f.bottom ≤ e) (hk : |k| ≤ 2 ^ f.precision) :
    f.nearest (k * 2 ^ e) = k * 2 ^ e := by
  obtain ⟨m, hm⟩ : ∃ m : ℤ, (k * 2 ^ e : ℚ) = m * 2 ^ f.place (k * 2 ^ e) := by
    rcases eq_or_ne k 0 with rfl | hne
    · exact ⟨0, by simp⟩
    have habs : |(k * 2 ^ e : ℚ)| = ((|k| : ℤ) : ℚ) * 2 ^ e := by
      rw [abs_mul, abs_of_pos (two_zpow_pos e), Int.cast_abs]
    have hpos : 0 < |(k * 2 ^ e : ℚ)| := abs_pos.mpr (mul_ne_zero (by exact_mod_cast hne)
      (two_zpow_pos e).ne')
    rcases hk.lt_or_eq with hlt | heq
    · -- with fewer digits the last place is at or below `e`
      have hplace : f.place (k * 2 ^ e) ≤ e := by
        have hbound : |(k * 2 ^ e : ℚ)| < ((2 : ℕ) : ℚ) ^ (f.precision + e : ℤ) := by
          rw [habs, Nat.cast_two, zpow_add₀ two_ne_zero, zpow_natCast]
          exact mul_lt_mul_of_pos_right (by exact_mod_cast hlt) (two_zpow_pos e)
        have hlog := (Int.lt_zpow_iff_log_lt one_lt_two hpos).mp hbound
        unfold place
        omega
      refine ⟨k * 2 ^ (e - f.place (k * 2 ^ e)).toNat, ?_⟩
      conv_lhs => rw [two_zpow_eq hplace]
      push_cast
      ring
    · -- the power of two above them has its last place one higher
      have hpower : |(k * 2 ^ e : ℚ)| = ((2 : ℕ) : ℚ) ^ (f.precision + e : ℤ) := by
        rw [habs, heq, Nat.cast_two, zpow_add₀ two_ne_zero, zpow_natCast]
        push_cast
        rfl
      have hplace : f.place (k * 2 ^ e) = e + 1 := by
        unfold place
        rw [hpower, Int.log_zpow one_lt_two]
        omega
      obtain ⟨n, hn⟩ : ∃ n, f.precision = n + 1 := Nat.exists_eq_succ_of_ne_zero
        f.precision_pos.ne'
      have heven : (2 : ℤ) ∣ k := by
        rw [← dvd_abs, heq, hn]
        exact dvd_pow_self 2 n.succ_ne_zero
      obtain ⟨m, rfl⟩ := heven
      refine ⟨m, ?_⟩
      rw [hplace, zpow_add_one₀ two_ne_zero]
      push_cast
      ring
  have hquotient : (k * 2 ^ e : ℚ) / 2 ^ f.place (k * 2 ^ e) = m := by
    rw [div_eq_iff (two_zpow_pos _).ne']
    exact hm
  rw [nearest, hquotient, roundEven_intCast]
  exact hm.symm

/-- What rounding gives is a number of the format. -/
theorem nearest_nearest (x : ℚ) : f.nearest (f.nearest x) = f.nearest x := by
  refine nearest_scaled (le_max_right _ _) ?_
  -- below the next power of two there are at most `2 ^ precision` places
  have hbound : |x / 2 ^ f.place x| ≤ ((2 ^ f.precision : ℤ) : ℚ) := by
    rw [abs_div, abs_of_pos (two_zpow_pos _), div_le_iff₀ (two_zpow_pos _)]
    have hlog : |x| < (2 : ℚ) ^ (Int.log 2 |x| + 1) := Int.lt_zpow_succ_log_self one_lt_two _
    have hplace : Int.log 2 |x| + 1 ≤ f.precision + f.place x := by
      unfold place
      omega
    calc
      |x| ≤ 2 ^ (f.precision + f.place x : ℤ) :=
        hlog.le.trans (zpow_le_zpow_right₀ one_le_two hplace)
      _ = ((2 ^ f.precision : ℤ) : ℚ) * 2 ^ f.place x := by
        rw [zpow_add₀ two_ne_zero, zpow_natCast]
        push_cast
        rfl
  rw [abs_le] at hbound ⊢
  constructor
  · have hlow := roundEven_mono hbound.1
    rwa [← Int.cast_neg, roundEven_intCast] at hlow
  · have hhigh := roundEven_mono hbound.2
    rwa [roundEven_intCast] at hhigh

end Format

/-! ## Finite numbers -/

/-- A finite number of the format. -/
structure Finite (f : Format) where
  value : ℚ
  exact : f.nearest value = value
  finite : |value| < 2 ^ f.top
  deriving DecidableEq

/-- The result of an operation whose exact result is `x`: `none` where it is infinite. -/
def round? (f : Format) (x : ℚ) : Option (Finite f) :=
  if h : |f.nearest x| < 2 ^ f.top then some ⟨f.nearest x, Format.nearest_nearest x, h⟩ else none

namespace Finite

variable {f : Format} {x y : Finite f} {q : ℚ}

theorem value_of_round? (h : round? f q = some x) : x.value = f.nearest q := by
  unfold round? at h
  split at h
  · obtain rfl := Option.some.inj h
    rfl
  · cases h

/-- A number of the format below the exact result is below the rounded one. -/
theorem le_of_round? (h : round? f q = some x) (hy : 0 ≤ y.value) (hle : y.value ≤ q) :
    y.value ≤ x.value := by
  rw [value_of_round? h, ← y.exact]
  exact Format.nearest_mono hy hle

end Finite

end FloatingPoint
