import Oecophylla.Python.Double
import Mathlib.Tactic.Linarith
import Mathlib.Tactic.Positivity

namespace Oecophylla.Python

/-!
# The order of doubles

Rounding keeps the order, and does not move a double.

* `roundHalfEven_mono`, `roundHalfEven_neg`, `roundHalfEven_intCast_add` — rounding to an
  integer;
* `nearestDouble_mono`, `nearestDouble_neg` — rounding to a double;
* `IsDouble` — what rounding leaves alone; `isDouble_nearestDouble`, `isDouble_natCast`;
* `nearestDouble_le_add`, `sub_le_nearestDouble_add` — how far a result is from what it stands for.
-/

/-! ### Rounding to an integer -/

theorem roundHalfEven_eq (q : ℚ) : roundHalfEven q = ⌊q⌋ ∨ roundHalfEven q = ⌊q⌋ + 1 := by
  unfold roundHalfEven
  dsimp only
  split_ifs <;> omega

@[simp] theorem roundHalfEven_intCast (n : Int) : roundHalfEven n = n := by
  unfold roundHalfEven
  simp

theorem roundHalfEven_mono {q r : ℚ} (h : q ≤ r) : roundHalfEven q ≤ roundHalfEven r := by
  rcases (Int.floor_le_floor h).lt_or_eq with hlt | heq
  · have hq := roundHalfEven_eq q
    have hr := roundHalfEven_eq r
    omega
  · unfold roundHalfEven
    dsimp only
    rw [heq]
    split_ifs <;> first | omega | (exfalso; linarith)

/-- A number midway between two integers. -/
def IsTie (q : ℚ) : Prop := q - ⌊q⌋ = 1 / 2

instance (q : ℚ) : Decidable (IsTie q) := inferInstanceAs (Decidable (_ = _))

/-- Adding an integer and rounding: apart from ties, the order does not matter. -/
theorem roundHalfEven_intCast_add {q : ℚ} (h : ¬ IsTie q) (n : Int) :
    roundHalfEven (n + q) = n + roundHalfEven q := by
  unfold IsTie at h
  have hfraction : (n : ℚ) + q - ((n + ⌊q⌋ : Int) : ℚ) = q - ⌊q⌋ := by
    push_cast
    ring
  unfold roundHalfEven
  dsimp only
  rw [Int.floor_intCast_add, hfraction]
  by_cases hlow : q - ⌊q⌋ < 1 / 2
  · rw [if_pos hlow, if_pos hlow]
  · have hhigh : 1 / 2 < q - ⌊q⌋ := lt_of_le_of_ne (not_lt.mp hlow) (Ne.symm h)
    rw [if_neg hlow, if_neg hlow, if_pos hhigh, if_pos hhigh, add_assoc]

/-- What is rounded below an integer: what is nearer to the one before, and the tie if that is even. -/
theorem roundHalfEven_lt_iff {q : ℚ} {n : Int} :
    roundHalfEven q < n ↔ q < n - 1 / 2 ∨ q = n - 1 / 2 ∧ n % 2 = 1 := by
  have hle : (⌊q⌋ : ℚ) ≤ q := Int.floor_le q
  have hlt : q < ⌊q⌋ + 1 := Int.lt_floor_add_one q
  rcases lt_trichotomy ⌊q⌋ (n - 1) with hbelow | hlast | habove
  · have hround := roundHalfEven_eq q
    have hcast : (⌊q⌋ : ℚ) + 1 ≤ n - 1 := by exact_mod_cast (by omega : ⌊q⌋ + 1 ≤ n - 1)
    exact iff_of_true (by omega) (Or.inl (by linarith))
  · -- between the integer before and the integer itself
    have hcast : (⌊q⌋ : ℚ) = n - 1 := by exact_mod_cast hlast
    unfold roundHalfEven
    dsimp only
    rw [hcast, hlast]
    split_ifs with hdown hup heven
    · exact iff_of_true (by omega) (Or.inl (by linarith))
    · exact iff_of_false (by omega) (by rintro (h | ⟨h, -⟩) <;> linarith)
    · exact iff_of_true (by omega) (Or.inr ⟨by linarith, by omega⟩)
    · refine iff_of_false (by omega) ?_
      rintro (h | ⟨-, h⟩)
      · linarith
      · omega
  · have hround := roundHalfEven_eq q
    have hcast : (n : ℚ) ≤ ⌊q⌋ := by exact_mod_cast (by omega : n ≤ ⌊q⌋)
    refine iff_of_false (by omega) ?_
    rintro (h | ⟨h, -⟩) <;> linarith

theorem roundHalfEven_neg (q : ℚ) : roundHalfEven (-q) = -roundHalfEven q := by
  by_cases hint : q = ⌊q⌋
  · rw [hint, ← Int.cast_neg, roundHalfEven_intCast, roundHalfEven_intCast]
  · have hlt : (⌊q⌋ : ℚ) < q := lt_of_le_of_ne (Int.floor_le q) (Ne.symm hint)
    have hfloor : ⌊-q⌋ = -⌊q⌋ - 1 := by
      rw [Int.floor_eq_iff]
      have hlt' := Int.lt_floor_add_one q
      push_cast
      constructor <;> linarith
    unfold roundHalfEven
    dsimp only
    rw [hfloor]
    push_cast
    split_ifs <;> first | omega | (exfalso; linarith)

/-! ### Rounding to a double -/

section Nearest

variable {q r a b : ℚ}

@[simp] theorem ulp_neg (q : ℚ) : ulp (-q) = ulp q := by
  unfold ulp
  rw [abs_neg]

theorem nearestDouble_neg (q : ℚ) : nearestDouble (-q) = -nearestDouble q := by
  unfold nearestDouble
  rw [ulp_neg, neg_div, roundHalfEven_neg]
  push_cast
  ring

/-- A multiple of the distance between the doubles is not passed. -/
theorem nearestDouble_le_of_multiple {n : Int} (ha : a = n * ulp q) (h : q ≤ a) :
    nearestDouble q ≤ a := by
  have hquotient : q / ulp q ≤ n := by
    rw [div_le_iff₀ (ulp_pos q), ← ha]
    exact h
  have hround : roundHalfEven (q / ulp q) ≤ n :=
    (roundHalfEven_mono hquotient).trans (roundHalfEven_intCast n).le
  rw [ha]
  exact mul_le_mul_of_nonneg_right (by exact_mod_cast hround) (ulp_pos q).le

theorem le_nearestDouble_of_multiple {n : Int} (ha : a = n * ulp q) (h : a ≤ q) :
    a ≤ nearestDouble q := by
  have hquotient : n ≤ q / ulp q := by
    rw [le_div_iff₀ (ulp_pos q), ← ha]
    exact h
  have hround : n ≤ roundHalfEven (q / ulp q) :=
    (roundHalfEven_intCast n).symm.le.trans (roundHalfEven_mono hquotient)
  rw [ha]
  exact mul_le_mul_of_nonneg_right (by exact_mod_cast hround) (ulp_pos q).le

/-- A power of two that is not below the first bit of a number is such a multiple. -/
theorem zpow_multiple {k : Int} (hlog : Int.log 2 |q| ≤ k) (hk : -1074 ≤ k) :
    ∃ n : Int, (2 : ℚ) ^ k = n * ulp q := by
  obtain ⟨m, hm⟩ : ∃ m : Nat, k = m + max (Int.log 2 |q| - 52) (-1074) :=
    ⟨(k - max (Int.log 2 |q| - 52) (-1074)).toNat, by omega⟩
  refine ⟨2 ^ m, ?_⟩
  unfold ulp
  rw [hm, zpow_add₀ (by norm_num)]
  push_cast
  rw [zpow_natCast]

/-- **Rounding keeps the order**, of positive numbers first. -/
theorem nearestDouble_mono_of_pos (hq : 0 < q) (h : q ≤ r) : nearestDouble q ≤ nearestDouble r := by
  have hr : 0 < r := hq.trans_le h
  have hlog : Int.log 2 q ≤ Int.log 2 r := Int.log_mono_right hq h
  by_cases hulp : ulp q = ulp r
  · have hround : roundHalfEven (q / ulp r) ≤ roundHalfEven (r / ulp r) :=
      roundHalfEven_mono (div_le_div_of_nonneg_right h (ulp_pos r).le)
    unfold nearestDouble
    rw [hulp]
    exact mul_le_mul_of_nonneg_right (by exact_mod_cast hround) (ulp_pos r).le
  · -- a power of two lies between them
    have hexponents : ¬ max (Int.log 2 q - 52) (-1074) = max (Int.log 2 r - 52) (-1074) := by
      intro heq
      apply hulp
      unfold ulp
      rw [abs_of_pos hq, abs_of_pos hr, heq]
    have hqk : Int.log 2 q + 1 ≤ Int.log 2 r := by omega
    have hk : -1074 ≤ Int.log 2 r := by omega
    have hbelow : q ≤ 2 ^ Int.log 2 r := by
      have hlt : q < 2 ^ (Int.log 2 q + 1) := by
        exact_mod_cast Int.lt_zpow_succ_log_self (b := 2) (by decide) q
      exact hlt.le.trans (zpow_le_zpow_right₀ (by norm_num) hqk)
    have habove : (2 : ℚ) ^ Int.log 2 r ≤ r := by
      exact_mod_cast Int.zpow_log_le_self (b := 2) (by decide) hr
    obtain ⟨m, hm⟩ := zpow_multiple (q := q) (k := Int.log 2 r)
      (by rw [abs_of_pos hq]; exact hlog) hk
    obtain ⟨n, hn⟩ := zpow_multiple (q := r) (k := Int.log 2 r)
      (by rw [abs_of_pos hr]) hk
    exact (nearestDouble_le_of_multiple hm hbelow).trans (le_nearestDouble_of_multiple hn habove)

theorem nearestDouble_mono (h : q ≤ r) : nearestDouble q ≤ nearestDouble r := by
  rcases lt_trichotomy q 0 with hq | rfl | hq
  · rcases lt_or_ge r 0 with hr | hr
    · have hneg := nearestDouble_mono_of_pos (neg_pos.mpr hr) (neg_le_neg h)
      rw [nearestDouble_neg, nearestDouble_neg] at hneg
      exact neg_le_neg_iff.mp hneg
    · have hneg : 0 ≤ nearestDouble (-q) := nearestDouble_nonneg (neg_pos.mpr hq).le
      rw [nearestDouble_neg] at hneg
      exact (neg_nonneg.mp hneg).trans (nearestDouble_nonneg hr)
  · rw [nearestDouble_zero]
    exact nearestDouble_nonneg h
  · exact nearestDouble_mono_of_pos hq h

end Nearest

/-! ### Doubles -/

section Doubles

variable {q a b : ℚ}

/-- A number that is a double. -/
def IsDouble (q : ℚ) : Prop := nearestDouble q = q

/-- The multiples of the distance between the doubles are doubles. -/
theorem isDouble_of_multiple {n : Int} (h : q = n * ulp q) : IsDouble q := by
  have hquotient : q / ulp q = n := by
    rw [div_eq_iff (ulp_pos q).ne']
    exact h
  unfold IsDouble nearestDouble
  rw [hquotient, roundHalfEven_intCast, ← h]

/-- The numbers with 53 bits are doubles. -/
theorem isDouble_of_mantissa {n e : Int} (hn : |n| ≤ 2 ^ 53) (he : -1074 ≤ e) :
    IsDouble (n * 2 ^ e) := by
  by_cases hzero : n = 0
  · rw [hzero, Int.cast_zero, zero_mul]
    exact nearestDouble_zero
  have habs : |(n : ℚ) * 2 ^ e| = |n| * 2 ^ e := by
    rw [abs_mul, abs_of_pos (zpow_pos (zero_lt_two' ℚ) e), Int.cast_abs]
  have hpos : 0 < |(n : ℚ) * 2 ^ e| :=
    abs_pos.mpr (mul_ne_zero (Int.cast_ne_zero.mpr hzero) (zpow_pos (by norm_num) e).ne')
  rcases hn.lt_or_eq with hlt | heq
  · -- fewer than 53 bits
    have hlog : Int.log 2 |(n : ℚ) * 2 ^ e| < e + 53 := by
      rw [← Int.lt_zpow_iff_log_lt (by decide) hpos, habs, Nat.cast_ofNat, add_comm,
        zpow_add₀ (by norm_num)]
      refine mul_lt_mul_of_pos_right ?_ (zpow_pos (by norm_num) e)
      exact_mod_cast hlt
    obtain ⟨m, hm⟩ : ∃ m : Nat, e = m + max (Int.log 2 |(n : ℚ) * 2 ^ e| - 52) (-1074) :=
      ⟨(e - max (Int.log 2 |(n : ℚ) * 2 ^ e| - 52) (-1074)).toNat, by omega⟩
    apply isDouble_of_multiple (n := n * 2 ^ m)
    have hpow : (2 : ℚ) ^ e = 2 ^ m * ulp (n * 2 ^ e) := by
      unfold ulp
      rw [← zpow_natCast, ← zpow_add₀ (by norm_num), ← hm]
    push_cast
    rw [mul_assoc, ← hpow]
  · -- a power of two
    obtain ⟨m, hm⟩ : ∃ m : Int, n = m * 2 := by
      rcases abs_choice n with h | h <;> exact ⟨n / 2, by omega⟩
    have hlog : Int.log 2 |(n : ℚ) * 2 ^ e| = e + 53 := by
      rw [habs, heq, add_comm e]
      have hpow : ((2 ^ 53 : Int) : ℚ) * 2 ^ e = ((2 : Nat) : ℚ) ^ (53 + e) := by
        rw [Nat.cast_ofNat, zpow_add₀ (by norm_num)]
        norm_num
      rw [hpow, Int.log_zpow (by decide)]
    apply isDouble_of_multiple (n := m)
    unfold ulp
    have hexponent : max (e + 53 - 52) (-1074) = e + 1 := by omega
    rw [hlog, hexponent, zpow_add₀ (by norm_num), hm]
    push_cast
    ring

/-- The result of an operation is a double. -/
theorem isDouble_nearestDouble (q : ℚ) : IsDouble (nearestDouble q) := by
  have hbits : |q / ulp q| ≤ (2 ^ 53 : Int) := by
    rw [abs_div, abs_of_pos (ulp_pos q), div_le_iff₀ (ulp_pos q)]
    have hlt : |q| < 2 ^ (Int.log 2 |q| + 1) := by
      exact_mod_cast Int.lt_zpow_succ_log_self (b := 2) (by decide) |q|
    have hulp : (2 : ℚ) ^ (Int.log 2 |q| - 52) ≤ ulp q :=
      zpow_le_zpow_right₀ (by norm_num) (le_max_left _ _)
    have hpow : (2 : ℚ) ^ (Int.log 2 |q| + 1) = 2 ^ 53 * 2 ^ (Int.log 2 |q| - 52) := by
      rw [← zpow_natCast, ← zpow_add₀ (by norm_num)]
      congr 1
      omega
    rw [hpow] at hlt
    push_cast
    linarith
  rw [abs_le] at hbits
  unfold nearestDouble ulp
  refine isDouble_of_mantissa (abs_le.mpr ⟨?_, ?_⟩) (le_max_right _ _)
  · have h := roundHalfEven_mono hbits.1
    rwa [← Int.cast_neg, roundHalfEven_intCast] at h
  · have h := roundHalfEven_mono hbits.2
    rwa [roundHalfEven_intCast] at h

theorem isDouble_natCast {n : Nat} (hn : n ≤ 2 ^ 53) : IsDouble n := by
  have h := isDouble_of_mantissa (n := n) (e := 0) (by rw [Nat.abs_cast]; exact_mod_cast hn) (by decide)
  simpa using h

theorem IsDouble.neg (ha : IsDouble a) : IsDouble (-a) := by
  unfold IsDouble
  rw [nearestDouble_neg, ha]

theorem IsDouble.le_nearestDouble (ha : IsDouble a) (h : a ≤ q) : a ≤ nearestDouble q :=
  ha.symm.le.trans (nearestDouble_mono h)

theorem IsDouble.nearestDouble_le (ha : IsDouble a) (h : q ≤ a) : nearestDouble q ≤ a :=
  (nearestDouble_mono h).trans ha.le

/-- How far a result is from what it stands for, at most. -/
theorem abs_nearestDouble_sub_le (q : ℚ) : |nearestDouble q - q| ≤ ulp q / 2 := by
  have hround := abs_roundHalfEven_sub_le (q / ulp q)
  have hscale : nearestDouble q - q = (roundHalfEven (q / ulp q) - q / ulp q) * ulp q := by
    unfold nearestDouble
    rw [sub_mul, div_mul_cancel₀ q (ulp_pos q).ne']
  rw [hscale, abs_mul, abs_of_pos (ulp_pos q)]
  have h := mul_le_mul_of_nonneg_right hround (ulp_pos q).le
  linarith

/-- Below 2. -/
theorem nearestDouble_le_add (hq : 0 ≤ q) (h : q < 2) : nearestDouble q ≤ q + 2 ^ (-53 : Int) := by
  have hulp : ulp q ≤ 2 ^ (-52 : Int) := by
    have hlog : Int.log 2 q ≤ 0 := by
      rcases hq.lt_or_eq with hpos | rfl
      · rw [← Int.lt_add_one_iff, ← Int.lt_zpow_iff_log_lt (by decide) hpos]
        simpa using h
      · exact (Int.log_zero_right 2).le
    unfold ulp
    rw [abs_of_nonneg hq]
    exact zpow_le_zpow_right₀ (by norm_num) (by omega)
  have herror := (abs_le.mp (abs_nearestDouble_sub_le q)).2
  have hhalf : (2 : ℚ) ^ (-52 : Int) = 2 * 2 ^ (-53 : Int) := by norm_num
  linarith

/-- A double is a multiple of the smallest one. -/
theorem IsDouble.multiple (ha : IsDouble a) : ∃ n : Int, a = n * smallestDouble := by
  obtain ⟨m, hm⟩ : ∃ m : Nat, max (Int.log 2 |a| - 52) (-1074) = m + -1074 :=
    ⟨(max (Int.log 2 |a| - 52) (-1074) + 1074).toNat, by omega⟩
  refine ⟨roundHalfEven (a / ulp a) * 2 ^ m, ?_⟩
  have hulp : ulp a = 2 ^ m * smallestDouble := by
    unfold ulp smallestDouble
    rw [hm, zpow_add₀ (by norm_num), zpow_natCast]
  push_cast
  rw [mul_assoc, ← hulp]
  exact ha.symm

/-- A sum of doubles is at most a part in `2 ^ 53` too small. -/
theorem sub_le_nearestDouble_add (ha : IsDouble a) (hb : IsDouble b) (ha0 : 0 ≤ a) (hb0 : 0 ≤ b) :
    (a + b) * (1 - 2 ^ (-53 : Int)) ≤ nearestDouble (a + b) := by
  have hsum : 0 ≤ a + b := add_nonneg ha0 hb0
  rcases hsum.lt_or_eq with hpos | hzero
  · by_cases hsmall : Int.log 2 (a + b) - 52 ≤ -1074
    · -- the sum is exact
      obtain ⟨m, hm⟩ := ha.multiple
      obtain ⟨n, hn⟩ := hb.multiple
      have hexact : IsDouble (a + b) := by
        apply isDouble_of_multiple (n := m + n)
        have hulp : ulp (a + b) = smallestDouble := by
          unfold ulp smallestDouble
          rw [abs_of_pos hpos, max_eq_right hsmall]
        rw [hulp]
        push_cast
        rw [add_mul, ← hm, ← hn]
      rw [hexact]
      have hpart : (0 : ℚ) ≤ (a + b) * 2 ^ (-53 : Int) := mul_nonneg hsum (zpow_pos (by norm_num) _).le
      linarith
    · have hulp : ulp (a + b) ≤ (a + b) * 2 ^ (-52 : Int) := by
        have hlog : (2 : ℚ) ^ Int.log 2 (a + b) ≤ a + b := by
          exact_mod_cast Int.zpow_log_le_self (b := 2) (by decide) hpos
        unfold ulp
        rw [abs_of_pos hpos, max_eq_left (by omega), sub_eq_add_neg, zpow_add₀ (by norm_num)]
        exact mul_le_mul_of_nonneg_right hlog (zpow_pos (by norm_num) _).le
      have herror := (abs_le.mp (abs_nearestDouble_sub_le (a + b))).1
      have hhalf : (2 : ℚ) ^ (-52 : Int) = 2 * 2 ^ (-53 : Int) := by norm_num
      rw [hhalf] at hulp
      linarith
  · rw [← hzero, nearestDouble_zero, zero_mul]

end Doubles

/-! ### Rounding to digits -/

section Digits

variable {n : Nat} {q r : ℚ}

theorem roundDigits_mono (h : q ≤ r) : roundDigits n q ≤ roundDigits n r := by
  have hpow : (0 : ℚ) < 10 ^ n := pow_pos (by norm_num) n
  have hround : roundHalfEven (q * 10 ^ n) ≤ roundHalfEven (r * 10 ^ n) :=
    roundHalfEven_mono (mul_le_mul_of_nonneg_right h hpow.le)
  exact nearestDouble_mono (div_le_div_of_nonneg_right (by exact_mod_cast hround) hpow.le)

theorem roundDigits_neg (q : ℚ) : roundDigits n (-q) = -roundDigits n q := by
  unfold roundDigits
  rw [neg_mul, roundHalfEven_neg, Int.cast_neg, neg_div, nearestDouble_neg]

/-- An integer is left alone. -/
theorem roundDigits_intCast {m : Int} (hm : IsDouble m) : roundDigits n m = m := by
  have hpow : (10 : ℚ) ^ n ≠ 0 := pow_ne_zero n (by norm_num)
  have hint : (m : ℚ) * 10 ^ n = ((m * 10 ^ n : Int) : ℚ) := by push_cast; rfl
  unfold roundDigits
  rw [hint, roundHalfEven_intCast]
  push_cast
  rw [mul_div_cancel_right₀ _ hpow]
  exact hm

end Digits

end Oecophylla.Python
