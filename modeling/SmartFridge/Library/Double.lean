import Mathlib.Data.Int.Log
import Mathlib.Data.Rat.Floor
import Mathlib.Algebra.Order.Field.Power

/-!
# Rounding to double precision

The IEEE 754 double closest to a rational number, ties going to the even
significand.  Numbers outside the range of normal doubles are rounded as if
the exponent had no bounds.
-/

namespace SmartFridge.Library.Double

/-- The closest integer, and the even one where two are equally close. -/
def roundHalfEven (value : ℚ) : ℤ :=
  let below := ⌊value⌋
  if value - below < 1 / 2 then below
  else if 1 / 2 < value - below then below + 1
  else if below % 2 = 0 then below
  else below + 1

@[simp]
theorem roundHalfEven_intCast (value : ℤ) :
    roundHalfEven value = value := by
  simp [roundHalfEven]

/-- Rounding does not pass below an integer. -/
theorem le_roundHalfEven {bound : ℤ} {value : ℚ} (le : bound ≤ value) :
    bound ≤ roundHalfEven value := by
  have floorLe : bound ≤ ⌊value⌋ := Int.le_floor.mpr le
  simp only [roundHalfEven]
  split
  · exact floorLe
  · split
    · exact floorLe.trans (by simp)
    · split
      · exact floorLe
      · exact floorLe.trans (by simp)

/-- Rounding does not pass above an integer. -/
theorem roundHalfEven_le {bound : ℤ} {value : ℚ} (le : value ≤ bound) :
    roundHalfEven value ≤ bound := by
  rcases le.lt_or_eq with less | rfl
  · have floorLt : ⌊value⌋ + 1 ≤ bound :=
      Int.add_one_le_of_lt (Int.floor_lt.mpr less)
    simp only [roundHalfEven]
    split
    · omega
    · split
      · exact floorLt
      · split
        · omega
        · exact floorLt
  · exact (roundHalfEven_intCast bound).le

/-- The distance between neighbouring doubles of the size of a number. -/
def spacing (value : ℚ) : ℚ :=
  2 ^ (Int.log 2 |value| - 52)

/-- The double closest to a number. -/
def nearest (value : ℚ) : ℚ :=
  roundHalfEven (value / spacing value) * spacing value

theorem spacing_pos (value : ℚ) : 0 < spacing value := by
  rw [spacing]
  positivity

theorem spacing_mul (value : ℚ) :
    2 ^ 52 * spacing value = 2 ^ Int.log 2 |value| := by
  rw [spacing, zpow_sub₀ (by norm_num), zpow_ofNat]
  exact mul_div_cancel₀ _ (by norm_num)

theorem zpow_log_le {value : ℚ} (nonzero : value ≠ 0) :
    (2 : ℚ) ^ Int.log 2 |value| ≤ |value| := by
  have le := Int.zpow_log_le_self (b := 2) (by norm_num) (abs_pos.mpr nonzero)
  simpa using le

/-- Rounding a positive number keeps its binary order of magnitude. -/
theorem zpow_log_le_nearest {value : ℚ} (positive : 0 < value) :
    (2 : ℚ) ^ Int.log 2 |value| ≤ nearest value := by
  have le := zpow_log_le positive.ne'
  have scaled : ((2 ^ 52 : ℤ) : ℚ) ≤ value / spacing value := by
    rw [le_div_iff₀ (spacing_pos value), Int.cast_pow, Int.cast_ofNat,
      spacing_mul]
    exact le.trans_eq (abs_of_pos positive)
  have rounded : ((2 ^ 52 : ℤ) : ℚ) ≤ roundHalfEven (value / spacing value) :=
    Int.cast_le.mpr (le_roundHalfEven scaled)
  calc
    (2 : ℚ) ^ Int.log 2 |value|
        = ((2 ^ 52 : ℤ) : ℚ) * spacing value := by
          rw [Int.cast_pow, Int.cast_ofNat, spacing_mul]
    _ ≤ nearest value :=
        mul_le_mul_of_nonneg_right rounded (spacing_pos value).le

/-- An integer beyond a power of two is not rounded below it. -/
theorem zpow_le_nearest (exponent : ℕ) {value : ℤ}
    (le : 2 ^ exponent ≤ value) : (2 : ℚ) ^ exponent ≤ nearest value := by
  have cast : ((2 ^ exponent : ℤ) : ℚ) ≤ value := Int.cast_le.mpr le
  push_cast at cast
  have positive : (0 : ℚ) < value := lt_of_lt_of_le (by positivity) cast
  have log : (exponent : ℤ) ≤ Int.log 2 |(value : ℚ)| := by
    rw [← Int.zpow_le_iff_le_log (by norm_num) (abs_pos.mpr positive.ne'),
      abs_of_pos positive]
    exact_mod_cast cast
  calc
    (2 : ℚ) ^ exponent = 2 ^ (exponent : ℤ) := (zpow_natCast 2 exponent).symm
    _ ≤ 2 ^ Int.log 2 |(value : ℚ)| := zpow_le_zpow_right₀ (by norm_num) log
    _ ≤ nearest value := zpow_log_le_nearest positive

/-- Rounding keeps a number that is at least one so. -/
theorem one_le_nearest {value : ℚ} (le : 1 ≤ value) : 1 ≤ nearest value := by
  have positive : 0 < value := one_pos.trans_le le
  have logNonneg : 0 ≤ Int.log 2 |value| := by
    rw [abs_of_pos positive]
    exact (Int.log_one_right 2).symm.trans_le (Int.log_mono_right one_pos le)
  exact (one_le_zpow₀ (by norm_num) logNonneg).trans
    (zpow_log_le_nearest positive)

theorem nearest_pos {value : ℚ} (positive : 0 < value) : 0 < nearest value :=
  (zpow_pos (by norm_num) _).trans_le (zpow_log_le_nearest positive)

/-- Rounding a negative number keeps its binary order of magnitude. -/
theorem nearest_le_neg_zpow_log {value : ℚ} (negative : value < 0) :
    nearest value ≤ -(2 : ℚ) ^ Int.log 2 |value| := by
  have le := zpow_log_le negative.ne
  have scaled : value / spacing value ≤ ((-(2 ^ 52) : ℤ) : ℚ) := by
    rw [div_le_iff₀ (spacing_pos value), Int.cast_neg, Int.cast_pow,
      Int.cast_ofNat, neg_mul, spacing_mul]
    rw [abs_of_neg negative] at le ⊢
    exact le_neg_of_le_neg le
  have rounded : (roundHalfEven (value / spacing value) : ℚ) ≤
      ((-(2 ^ 52) : ℤ) : ℚ) :=
    Int.cast_le.mpr (roundHalfEven_le scaled)
  calc
    nearest value ≤ ((-(2 ^ 52) : ℤ) : ℚ) * spacing value :=
        mul_le_mul_of_nonneg_right rounded (spacing_pos value).le
    _ = -(2 : ℚ) ^ Int.log 2 |value| := by
        rw [Int.cast_neg, Int.cast_pow, Int.cast_ofNat, neg_mul, spacing_mul]

/-- An integer below a negative power of two is not rounded above it. -/
theorem nearest_le_neg_zpow (exponent : ℕ) {value : ℤ}
    (le : value ≤ -(2 ^ exponent)) :
    nearest value ≤ -(2 : ℚ) ^ exponent := by
  have cast : (value : ℚ) ≤ ((-(2 ^ exponent) : ℤ) : ℚ) := Int.cast_le.mpr le
  push_cast at cast
  have negative : (value : ℚ) < 0 :=
    lt_of_le_of_lt cast (neg_lt_zero.mpr (by positivity))
  have log : (exponent : ℤ) ≤ Int.log 2 |(value : ℚ)| := by
    rw [← Int.zpow_le_iff_le_log (by norm_num) (abs_pos.mpr negative.ne),
      abs_of_neg negative]
    exact_mod_cast le_neg_of_le_neg cast
  calc
    nearest value ≤ -(2 : ℚ) ^ Int.log 2 |(value : ℚ)| :=
        nearest_le_neg_zpow_log negative
    _ ≤ -(2 : ℚ) ^ (exponent : ℤ) :=
        neg_le_neg (zpow_le_zpow_right₀ (by norm_num) log)
    _ = -(2 : ℚ) ^ exponent := by rw [zpow_natCast]

theorem nearest_neg {value : ℚ} (negative : value < 0) :
    nearest value < 0 :=
  (nearest_le_neg_zpow_log negative).trans_lt
    (neg_lt_zero.mpr (zpow_pos (by norm_num) _))

@[simp]
theorem nearest_zero : nearest 0 = 0 := by
  simp [nearest, roundHalfEven]

theorem nearest_nonpos {value : ℚ} (nonpos : value ≤ 0) :
    nearest value ≤ 0 := by
  rcases nonpos.lt_or_eq with negative | rfl
  · exact (nearest_neg negative).le
  · exact nearest_zero.le

/-- Only zero is rounded to zero. -/
theorem nearest_eq_zero {value : ℚ} : nearest value = 0 ↔ value = 0 := by
  constructor
  · intro rounded
    rcases lt_trichotomy value 0 with negative | zero | positive
    · exact absurd rounded (nearest_neg negative).ne
    · exact zero
    · exact absurd rounded (nearest_pos positive).ne'
  · rintro rfl
    exact nearest_zero

/-- The exponent of an integer of at most 53 bits that is scaled. -/
theorem log_le_of_small {value : ℤ} (small : |value| < 2 ^ 53) {scale : ℤ}
    (nonzero : value ≠ 0) : Int.log 2 |(value : ℚ) * 2 ^ scale| ≤ scale + 52 := by
  have scaled : (0 : ℚ) < 2 ^ scale := zpow_pos (by norm_num) scale
  have positive : (0 : ℚ) < |(value : ℚ) * 2 ^ scale| :=
    abs_pos.mpr (mul_ne_zero (Int.cast_ne_zero.mpr nonzero) scaled.ne')
  have cast : ((|value| : ℤ) : ℚ) < ((2 ^ 53 : ℤ) : ℚ) :=
    Int.cast_lt.mpr small
  have bound : |(value : ℚ) * 2 ^ scale| < ((2 : ℕ) : ℚ) ^ (scale + 53) := by
    rw [abs_mul, abs_of_pos scaled, Nat.cast_ofNat,
      zpow_add₀ (by norm_num), mul_comm]
    rw [Int.cast_abs] at cast
    exact mul_lt_mul_of_pos_left (cast.trans_eq (by norm_num)) scaled
  have below := (Int.lt_zpow_iff_log_lt (by norm_num) positive).mp bound
  omega

/-- A double holds every integer of at most 53 bits, at any scale. -/
theorem nearest_mul_zpow {value : ℤ} (small : |value| < 2 ^ 53) (scale : ℤ) :
    nearest (value * 2 ^ scale) = value * 2 ^ scale := by
  rcases eq_or_ne value 0 with rfl | nonzero
  · simp
  · have logLe : Int.log 2 |(value : ℚ) * 2 ^ scale| ≤ scale + 52 :=
      log_le_of_small small nonzero
    generalize exponent : Int.log 2 |(value : ℚ) * 2 ^ scale| = log at logLe
    have scaled :
        (value : ℚ) * 2 ^ scale / spacing (value * 2 ^ scale) =
          ((value * 2 ^ (scale + 52 - log).toNat : ℤ) : ℚ) := by
      rw [spacing, exponent, mul_div_assoc, ← zpow_sub₀ (by norm_num)]
      push_cast
      rw [← zpow_natCast, Int.toNat_of_nonneg (by omega)]
      congr 2
      omega
    rw [nearest, scaled, roundHalfEven_intCast, ← scaled]
    exact div_mul_cancel₀ _ (spacing_pos _).ne'

/-- A double holds every integer of at most 53 bits. -/
theorem nearest_intCast {value : ℤ} (small : |value| < 2 ^ 53) :
    nearest value = value := by
  simpa using nearest_mul_zpow small 0

theorem abs_roundHalfEven_le (value : ℚ) :
    |roundHalfEven (value / spacing value)| ≤ 2 ^ 53 := by
  have bound : |value / spacing value| ≤ ((2 ^ 53 : ℤ) : ℚ) := by
    rw [abs_div, abs_of_pos (spacing_pos value),
      div_le_iff₀ (spacing_pos value)]
    have below := Int.lt_zpow_succ_log_self (b := 2) (by norm_num) |value|
    calc
      |value| ≤ 2 * 2 ^ Int.log 2 |value| := by
        rw [zpow_add₀ (by norm_num), zpow_one, mul_comm] at below
        exact_mod_cast below.le
      _ = ((2 ^ 53 : ℤ) : ℚ) * spacing value := by
        rw [← spacing_mul]
        push_cast
        ring
  rw [abs_le] at bound ⊢
  constructor
  · apply le_roundHalfEven
    push_cast at bound ⊢
    exact bound.1
  · exact roundHalfEven_le bound.2

/-- A double is the one closest to itself. -/
theorem nearest_nearest (value : ℚ) : nearest (nearest value) = nearest value := by
  have isScaled : nearest value =
      roundHalfEven (value / spacing value) *
        2 ^ (Int.log 2 |value| - 52) := rfl
  rw [isScaled]
  rcases (abs_roundHalfEven_le value).lt_or_eq with small | power
  · exact nearest_mul_zpow small _
  · -- The significand has become one bit longer, with zeros only.
    have halved : ∃ half : ℤ, |half| < 2 ^ 53 ∧
        roundHalfEven (value / spacing value) = half * 2 := by
      rcases (abs_eq (by norm_num)).mp power with same | same
      · exact ⟨2 ^ 52, by norm_num, same⟩
      · exact ⟨-(2 ^ 52), by norm_num, same⟩
    rcases halved with ⟨half, small, same⟩
    have rescaled : ((half * 2 : ℤ) : ℚ) * 2 ^ (Int.log 2 |value| - 52) =
        half * 2 ^ (Int.log 2 |value| - 52 + 1) := by
      rw [zpow_add₀ (by norm_num), zpow_one]
      push_cast
      ring
    rw [same, rescaled]
    exact nearest_mul_zpow small _

/-- The double closest to an integer is an integer. -/
theorem nearest_intCast_isInt (value : ℤ) :
    ∃ rounded : ℤ, nearest value = rounded := by
  rcases lt_or_ge |value| (2 ^ 53) with small | large
  · exact ⟨value, nearest_intCast small⟩
  · have largeCast : ((2 ^ 53 : ℤ) : ℚ) ≤ |(value : ℚ)| := by
      rw [← Int.cast_abs]
      exact Int.cast_le.mpr large
    have positive : (0 : ℚ) < |(value : ℚ)| :=
      lt_of_lt_of_le (by norm_num) largeCast
    have logGe : 53 ≤ Int.log 2 |(value : ℚ)| := by
      rw [← Int.zpow_le_iff_le_log (by norm_num) positive]
      exact le_trans (by norm_num) largeCast
    have whole :
        spacing (value : ℚ) =
          ((2 ^ (Int.log 2 |(value : ℚ)| - 52).toNat : ℤ) : ℚ) := by
      rw [spacing]
      push_cast
      rw [← zpow_natCast, Int.toNat_of_nonneg (by omega)]
    refine ⟨roundHalfEven ((value : ℚ) / spacing value) *
      2 ^ (Int.log 2 |(value : ℚ)| - 52).toNat, ?_⟩
    rw [nearest, Int.cast_mul, ← whole]

theorem one_le_nearest_intCast {value : ℤ} :
    1 ≤ nearest value ↔ 1 ≤ value := by
  constructor
  · intro le
    have positive : ¬ (value : ℚ) ≤ 0 := fun nonpos =>
      absurd (le.trans (nearest_nonpos nonpos)) (by norm_num)
    exact Int.cast_pos.mp (not_le.mp positive)
  · intro le
    exact one_le_nearest (by exact_mod_cast le)

end SmartFridge.Library.Double
