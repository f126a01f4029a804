import Oecophylla.Python.Timestamp

namespace Oecophylla.Python

/-!
# Arithmetic on doubles

The result of `+`, `*` and `/` on doubles is the nearest double.  A double is a rational here, so
that infinities are left out; the smallest positive one is `2 ^ (-1074)`, and smaller results may
be rounded to zero.

* `nearestDouble` — the nearest double;
* `roundDigits` — `round(x, n)`;
* `nearestDouble_pos`, `smallestDouble_le` — a positive result is at least the smallest double.
-/

/-- The distance of the doubles around a rational: 53 significant bits, but not beyond the 1074th
    binary place. -/
def ulp (q : ℚ) : ℚ := 2 ^ max (Int.log 2 |q| - 52) (-1074)

/-- The double nearest to a rational, ties to even. -/
def nearestDouble (q : ℚ) : ℚ := roundHalfEven (q / ulp q) * ulp q

/-- `round(x, n)`. -/
def roundDigits (n : Nat) (q : ℚ) : ℚ := nearestDouble (roundHalfEven (q * 10 ^ n) / 10 ^ n)

/-- The smallest positive double. -/
def smallestDouble : ℚ := 2 ^ (-1074 : Int)

theorem smallestDouble_pos : 0 < smallestDouble := zpow_pos (by norm_num) _

theorem ulp_pos (q : ℚ) : 0 < ulp q := zpow_pos (by norm_num) _

theorem smallestDouble_le_ulp (q : ℚ) : smallestDouble ≤ ulp q :=
  zpow_le_zpow_right₀ (by norm_num) (le_max_right _ _)

theorem roundHalfEven_nonneg {q : ℚ} (h : 0 ≤ q) : 0 ≤ roundHalfEven q := by
  have hfloor : 0 ≤ ⌊q⌋ := Int.floor_nonneg.mpr h
  unfold roundHalfEven
  dsimp only
  split_ifs <;> omega

theorem roundHalfEven_pos {q : ℚ} (h : 1 ≤ q) : 1 ≤ roundHalfEven q := by
  have hfloor : 1 ≤ ⌊q⌋ := Int.le_floor.mpr (by exact_mod_cast h)
  unfold roundHalfEven
  dsimp only
  split_ifs <;> omega

theorem abs_roundHalfEven_sub_le (q : ℚ) : |roundHalfEven q - q| ≤ 1 / 2 := by
  have hle : (⌊q⌋ : ℚ) ≤ q := Int.floor_le q
  have hlt : q < ⌊q⌋ + 1 := Int.lt_floor_add_one q
  rw [abs_le]
  unfold roundHalfEven
  dsimp only
  split_ifs <;> constructor <;> push_cast <;> linarith

theorem nearestDouble_nonneg {q : ℚ} (h : 0 ≤ q) : 0 ≤ nearestDouble q := by
  have hround : (0 : ℚ) ≤ roundHalfEven (q / ulp q) := by
    exact_mod_cast roundHalfEven_nonneg (div_nonneg h (ulp_pos q).le)
  exact mul_nonneg hround (ulp_pos q).le

/-- What is at least the smallest double is at least as far from zero as the doubles around it are
    from each other. -/
theorem ulp_le {q : ℚ} (h : smallestDouble ≤ q) : ulp q ≤ q := by
  have hq : 0 < q := smallestDouble_pos.trans_le h
  unfold ulp
  rw [abs_of_pos hq]
  rcases max_choice (Int.log 2 q - 52) (-1074) with hmax | hmax <;> rw [hmax]
  · -- the last of 53 bits is below the first
    have hlog : (2 : ℚ) ^ Int.log 2 q ≤ q := by
      exact_mod_cast Int.zpow_log_le_self (by decide) hq
    have hmono : (2 : ℚ) ^ (Int.log 2 q - 52) ≤ 2 ^ Int.log 2 q :=
      zpow_le_zpow_right₀ (by norm_num) (by omega)
    exact hmono.trans hlog
  · exact h

/-- The smallest double and everything above it is not rounded to zero. -/
theorem nearestDouble_pos {q : ℚ} (h : smallestDouble ≤ q) : 0 < nearestDouble q := by
  have hround : (1 : ℚ) ≤ roundHalfEven (q / ulp q) := by
    exact_mod_cast roundHalfEven_pos ((one_le_div (ulp_pos q)).mpr (ulp_le h))
  exact mul_pos (zero_lt_one.trans_le hround) (ulp_pos q)

/-- A positive double is at least the smallest one. -/
theorem smallestDouble_le {q : ℚ} (h : 0 < nearestDouble q) : smallestDouble ≤ nearestDouble q := by
  have hround : (0 : ℚ) < roundHalfEven (q / ulp q) :=
    (mul_pos_iff_of_pos_right (ulp_pos q)).mp h
  have hone : (1 : ℚ) ≤ roundHalfEven (q / ulp q) := by
    have hpos : 0 < roundHalfEven (q / ulp q) := by exact_mod_cast hround
    exact_mod_cast hpos
  calc smallestDouble ≤ ulp q := smallestDouble_le_ulp q
    _ = 1 * ulp q := (one_mul _).symm
    _ ≤ roundHalfEven (q / ulp q) * ulp q := mul_le_mul_of_nonneg_right hone (ulp_pos q).le

/-- Zero is a double. -/
@[simp] theorem nearestDouble_zero : nearestDouble 0 = 0 := by
  unfold nearestDouble
  rw [zero_div]
  simp [roundHalfEven]

end Oecophylla.Python
