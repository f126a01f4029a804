import Mathlib.Analysis.Calculus.LocalExtr.Basic
import Mathlib.Analysis.Convex.SpecificFunctions.Basic
import Mathlib.Analysis.SpecialFunctions.Log.Deriv
import Mathlib.Analysis.SpecialFunctions.Sigmoid
import Oecophylla.Lib.Run

namespace Oecophylla.Lib

/-!
# Library — logistic regression on one feature

Examples have a number and a label.  A fit has a slope and an intercept; its loss is the sum of the
log-losses of the examples, and half the square of the slope.

* `hasDerivAt_softplus`, `softplus_tangent` — the log-loss is convex, with the sigmoid as slope;
* `IsFit.stationary`, `Stationary.isFit` — the fits are the stationary points of the loss;
* `slope_nonneg_iff` — a fit ascends exactly when the examples with the label have the greater
  mean.
-/

open Real (sigmoid)

/-- `log(1 + exp(x))`. -/
noncomputable def softplus (x : ℝ) : ℝ := Real.log (1 + Real.exp x)

theorem one_add_exp_pos (x : ℝ) : 0 < 1 + Real.exp x := by positivity

theorem sigmoid_eq_div (x : ℝ) : sigmoid x = Real.exp x / (1 + Real.exp x) := by
  have hne := (one_add_exp_pos x).ne'
  have hexp := (Real.exp_pos x).ne'
  rw [Real.sigmoid_def, Real.exp_neg]
  field_simp
  ring

/-- The slope of the log-loss. -/
theorem hasDerivAt_softplus (x : ℝ) : HasDerivAt softplus (sigmoid x) x := by
  rw [sigmoid_eq_div]
  exact ((Real.hasDerivAt_exp x).const_add 1).log (one_add_exp_pos x).ne'

/-- The log-loss is above its tangents. -/
theorem softplus_tangent (s t : ℝ) : softplus s + sigmoid s * (t - s) ≤ softplus t := by
  have hs := one_add_exp_pos s
  have ht := one_add_exp_pos t
  -- the exponential between the two numbers is below its chord
  have hchord := convexOn_exp.2 (Set.mem_univ 0) (Set.mem_univ (t - s))
    (sub_nonneg.mpr (Real.sigmoid_le_one s)) (Real.sigmoid_nonneg s) (sub_add_cancel 1 (sigmoid s))
  have hquotient : (1 - sigmoid s) * 1 + sigmoid s * Real.exp (t - s)
      = (1 + Real.exp t) / (1 + Real.exp s) := by
    rw [sigmoid_eq_div, Real.exp_sub]
    field_simp
    ring
  rw [smul_zero, zero_add, smul_eq_mul, smul_eq_mul, smul_eq_mul, Real.exp_zero, hquotient]
    at hchord
  have hlog := (Real.le_log_iff_exp_le (div_pos ht hs)).mpr hchord
  rw [Real.log_div ht.ne' hs.ne'] at hlog
  unfold softplus
  linarith

/-! ### The loss -/

/-- An example: a number and its label. -/
abbrev Example := ℝ × Bool

/-- A label as a number. -/
def target (e : Example) : ℝ := if e.2 then 1 else 0

/-- The log-loss of an example. -/
noncomputable def logLoss (w b : ℝ) (e : Example) : ℝ :=
  softplus (w * e.1 + b) - target e * (w * e.1 + b)

attribute [local instance] atLeastTwo_two

/-- The regularised log-loss; the intercept is not penalised. -/
noncomputable def ridgeLoss (data : List Example) (w b : ℝ) : ℝ :=
  w ^ 2 / 2 + (data.map (logLoss w b)).sum

/-- A fit: a slope and an intercept of the least loss. -/
def IsFit (data : List Example) (w b : ℝ) : Prop :=
  ∀ w' b', ridgeLoss data w b ≤ ridgeLoss data w' b'

/-- What the prediction lacks. -/
noncomputable def residual (w b : ℝ) (e : Example) : ℝ := target e - sigmoid (w * e.1 + b)

/-- The loss has no slope. -/
structure Stationary (data : List Example) (w b : ℝ) : Prop where
  intercept : (data.map (residual w b)).sum = 0
  slope : (data.map fun e => residual w b e * e.1).sum = w

variable {data : List Example} {w b : ℝ}

theorem logLoss_tangent (w b w' b' : ℝ) (e : Example) :
    logLoss w b e - residual w b e * ((w' - w) * e.1 + (b' - b)) ≤ logLoss w' b' e := by
  have h := softplus_tangent (w * e.1 + b) (w' * e.1 + b')
  unfold logLoss residual
  linarith

/-- The tangents of the examples together. -/
theorem sum_logLoss_tangent (data : List Example) (w b w' b' : ℝ) :
    (data.map (logLoss w b)).sum
        - ((w' - w) * (data.map fun e => residual w b e * e.1).sum
          + (b' - b) * (data.map (residual w b)).sum)
      ≤ (data.map (logLoss w' b')).sum := by
  induction data with
  | nil => simp
  | cons e data ih =>
    have he := logLoss_tangent w b w' b' e
    simp only [List.map_cons, List.sum_cons]
    linarith

/-- A stationary point is a fit. -/
theorem Stationary.isFit (h : Stationary data w b) : IsFit data w b := by
  intro w' b'
  have htangent := sum_logLoss_tangent data w b w' b'
  rw [h.intercept, h.slope] at htangent
  unfold ridgeLoss
  nlinarith [sq_nonneg (w' - w)]

/-- The slope of the sum of the log-losses along a line of fits. -/
theorem hasDerivAt_sum_logLoss {u v : ℝ → ℝ} {u' v' x : ℝ} (hu : HasDerivAt u u' x)
    (hv : HasDerivAt v v' x) (data : List Example) :
    HasDerivAt (fun t => (data.map (logLoss (u t) (v t))).sum)
      (-(u' * (data.map fun e => residual (u x) (v x) e * e.1).sum
        + v' * (data.map (residual (u x) (v x))).sum)) x := by
  induction data with
  | nil => simpa using hasDerivAt_const x (0 : ℝ)
  | cons e data ih =>
    have hline : HasDerivAt (fun t => u t * e.1 + v t) (u' * e.1 + v') x :=
      (hu.mul_const e.1).add hv
    have hexample : HasDerivAt (fun t => logLoss (u t) (v t) e)
        (sigmoid (u x * e.1 + v x) * (u' * e.1 + v') - target e * (u' * e.1 + v')) x :=
      ((hasDerivAt_softplus _).comp x hline).sub (hline.const_mul (target e))
    simp only [List.map_cons, List.sum_cons]
    refine (hexample.add ih).congr_deriv ?_
    unfold residual
    ring

/-- A fit is a stationary point. -/
theorem IsFit.stationary (h : IsFit data w b) : Stationary data w b := by
  have hslope : HasDerivAt (fun t => ridgeLoss data t b)
      (w + -(1 * (data.map fun e => residual w b e * e.1).sum
        + 0 * (data.map (residual w b)).sum)) w := by
    have hsquare : HasDerivAt (fun t : ℝ => t ^ 2 / 2) w w :=
      ((hasDerivAt_pow 2 w).div_const 2).congr_deriv (by simp)
    exact hsquare.add (hasDerivAt_sum_logLoss (hasDerivAt_id w) (hasDerivAt_const w b) data)
  have hintercept : HasDerivAt (fun t => ridgeLoss data w t)
      (0 + -(0 * (data.map fun e => residual w b e * e.1).sum
        + 1 * (data.map (residual w b)).sum)) b :=
    (hasDerivAt_const b (w ^ 2 / 2)).add
      (hasDerivAt_sum_logLoss (hasDerivAt_const b w) (hasDerivAt_id b) data)
  have hmin : IsLocalMin (fun t => ridgeLoss data t b) w :=
    Filter.Eventually.of_forall fun t => h t b
  have hmin' : IsLocalMin (fun t => ridgeLoss data w t) b :=
    Filter.Eventually.of_forall fun t => h w t
  -- a minimum has no slope
  have hzero := hmin.hasDerivAt_eq_zero hslope
  have hzero' := hmin'.hasDerivAt_eq_zero hintercept
  exact ⟨by linarith, by linarith⟩

/-! ### The sign of the slope -/

/-- The mean of some numbers. -/
noncomputable def mean (l : List ℝ) : ℝ := l.sum / l.length

/-- The numbers of the examples with a label. -/
def valuesOf (data : List Example) (label : Bool) : List ℝ :=
  (data.filter fun e => e.2 = label).map Prod.fst

/-- The examples with and without the label are all of them. -/
theorem sum_valuesOf (data : List Example) (f : ℝ → ℝ) :
    ((valuesOf data true).map f).sum + ((valuesOf data false).map f).sum
      = (data.map fun e => f e.1).sum := by
  induction data with
  | nil => simp [valuesOf]
  | cons e data ih =>
    obtain ⟨x, label⟩ := e
    unfold valuesOf at *
    cases label
    · simp at ih ⊢
      linarith
    · simp at ih ⊢
      linarith

/-- The targets select the examples with the label. -/
theorem sum_target (data : List Example) (f : ℝ → ℝ) :
    (data.map fun e => target e * f e.1).sum = ((valuesOf data true).map f).sum := by
  induction data with
  | nil => simp [valuesOf]
  | cons e data ih =>
    obtain ⟨x, label⟩ := e
    unfold valuesOf at *
    cases label
    · simpa [target] using ih
    · simpa [target] using ih

private theorem sum_map_linear {α : Type*} {f g h : α → ℝ} (a c : ℝ)
    (hlinear : ∀ x, h x = a * f x + c * g x) (l : List α) :
    (l.map h).sum = a * (l.map f).sum + c * (l.map g).sum := by
  induction l with
  | nil => simp
  | cons x l ih =>
    simp only [List.map_cons, List.sum_cons, hlinear x, ih]
    ring

private theorem sum_map_sub_const (l : List ℝ) (c : ℝ) :
    (l.map fun x => x - c).sum = l.sum - l.length * c := by
  induction l with
  | nil => simp
  | cons x l ih =>
    simp only [List.map_cons, List.sum_cons, List.length_cons, ih]
    push_cast
    ring

/-- The distances from the mean cancel. -/
theorem sum_sub_mean (l : List ℝ) : (l.map fun x => x - mean l).sum = 0 := by
  rw [sum_map_sub_const]
  unfold mean
  by_cases hl : l.length = 0
  · rw [List.length_eq_zero_iff.mp hl]
    simp
  · have hne : (l.length : ℝ) ≠ 0 := Nat.cast_ne_zero.mpr hl
    field_simp
    ring

/-- The mean of all examples. -/
noncomputable def center (data : List Example) : ℝ := mean (data.map Prod.fst)

/-- The distances from the center, of the examples with the label. -/
noncomputable def tilt (data : List Example) : ℝ :=
  (data.map fun e => target e * (e.1 - center data)).sum

/-- The distances from the center, weighted with the predictions. -/
noncomputable def spread (data : List Example) (w b : ℝ) : ℝ :=
  (data.map fun e => sigmoid (w * e.1 + b) * (e.1 - center data)).sum

theorem sum_sub_center (data : List Example) : (data.map fun e => e.1 - center data).sum = 0 := by
  have h := sum_sub_mean (data.map Prod.fst)
  rwa [List.map_map] at h

/-- The slope of a fit is what the labels and the predictions differ by. -/
theorem Stationary.slope_eq (h : Stationary data w b) : w = tilt data - spread data w b := by
  have hresidual := sum_map_linear (f := fun e => residual w b e * e.1) (g := residual w b)
    (h := fun e => residual w b e * (e.1 - center data)) 1 (-center data) (fun e => by ring) data
  have hparts := sum_map_linear (f := fun e => target e * (e.1 - center data))
    (g := fun e => sigmoid (w * e.1 + b) * (e.1 - center data))
    (h := fun e => residual w b e * (e.1 - center data)) 1 (-1)
    (fun e => by unfold residual; ring) data
  rw [h.slope, h.intercept] at hresidual
  unfold tilt spread
  linarith

/-- The predictions spread in the direction of the slope. -/
theorem mul_spread_nonneg (data : List Example) (w b : ℝ) : 0 ≤ w * spread data w b := by
  have hcentered := sum_map_linear
    (f := fun e : Example => sigmoid (w * e.1 + b) * (e.1 - center data))
    (g := fun e => e.1 - center data)
    (h := fun e => (sigmoid (w * e.1 + b) - sigmoid (w * center data + b))
      * (w * (e.1 - center data)))
    w (-(w * sigmoid (w * center data + b))) (fun e => by ring) data
  rw [sum_sub_center, mul_zero, add_zero] at hcentered
  unfold spread
  rw [← hcentered]
  refine List.sum_nonneg fun x hx => ?_
  obtain ⟨e, -, rfl⟩ := List.mem_map.mp hx
  rcases le_total (w * e.1) (w * center data) with hle | hle
  · have hsigmoid := Real.sigmoid_le (add_le_add_left hle b)
    exact mul_nonneg_of_nonpos_of_nonpos (by linarith) (by linarith)
  · have hsigmoid := Real.sigmoid_le (add_le_add_left hle b)
    exact mul_nonneg (by linarith) (by linarith)

/-- The predictions of a flat fit do not spread. -/
theorem spread_zero (data : List Example) (b : ℝ) : spread data 0 b = 0 := by
  have hconst := sum_map_linear (f := fun e : Example => e.1 - center data)
    (g := fun e => e.1 - center data)
    (h := fun e => sigmoid (0 * e.1 + b) * (e.1 - center data)) (sigmoid b) 0
    (fun e => by rw [zero_mul, zero_add]; ring) data
  rw [sum_sub_center, mul_zero, zero_mul, add_zero] at hconst
  exact hconst

/-- A fit ascends exactly when the examples with the label are above the center. -/
theorem Stationary.slope_nonneg_iff_tilt (h : Stationary data w b) : 0 ≤ w ↔ 0 ≤ tilt data := by
  have hslope := h.slope_eq
  have hspread := mul_spread_nonneg data w b
  have hsquare : w ^ 2 ≤ w * tilt data := by
    have hmul : w * w = w * tilt data - w * spread data w b := by
      rw [← mul_sub, ← hslope]
    nlinarith
  constructor
  · intro hw
    rcases hw.lt_or_eq with hpos | hzero
    · nlinarith
    · rw [← hzero, spread_zero, sub_zero] at hslope
      exact hslope.le
  · intro htilt
    by_contra hneg
    nlinarith

/-- The center lies between the two means. -/
theorem tilt_nonneg_iff (htrue : valuesOf data true ≠ []) (hfalse : valuesOf data false ≠ []) :
    0 ≤ tilt data ↔ mean (valuesOf data false) ≤ mean (valuesOf data true) := by
  have hk : (0 : ℝ) < (valuesOf data true).length := by
    exact_mod_cast List.length_pos_iff.mpr htrue
  have hl : (0 : ℝ) < (valuesOf data false).length := by
    exact_mod_cast List.length_pos_iff.mpr hfalse
  have hsum := sum_valuesOf data id
  have hcount := sum_valuesOf data fun _ => 1
  simp only [List.map_id, List.map_const', List.sum_replicate, mul_one, nsmul_eq_mul]
    at hsum hcount
  have hcenter : center data
      = ((valuesOf data true).sum + (valuesOf data false).sum)
        / ((valuesOf data true).length + (valuesOf data false).length) := by
    unfold center mean
    rw [hsum, hcount, List.length_map]
    rfl
  have htilt : tilt data = ((valuesOf data true).sum * (valuesOf data false).length
        - (valuesOf data false).sum * (valuesOf data true).length)
      / ((valuesOf data true).length + (valuesOf data false).length) := by
    unfold tilt
    rw [sum_target data fun x => x - center data, sum_map_sub_const, hcenter]
    have hne : ((valuesOf data true).length + (valuesOf data false).length : ℝ) ≠ 0 := by positivity
    field_simp
    ring
  have hpos : (0 : ℝ) < (valuesOf data true).length + (valuesOf data false).length := add_pos hk hl
  unfold mean
  rw [htilt, div_le_div_iff₀ hl hk, le_div_iff₀ hpos, zero_mul, sub_nonneg]

/-- **The sign of the slope.**  A fit of examples with both labels ascends exactly when the mean of
    those with the label is not the smaller one. -/
theorem slope_nonneg_iff (h : IsFit data w b) (htrue : valuesOf data true ≠ [])
    (hfalse : valuesOf data false ≠ []) :
    0 ≤ w ↔ mean (valuesOf data false) ≤ mean (valuesOf data true) := by
  rw [h.stationary.slope_nonneg_iff_tilt, tilt_nonneg_iff htrue hfalse]

end Oecophylla.Lib
