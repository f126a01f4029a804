import Oecophylla.Lib.Softmax
import Mathlib.Analysis.Calculus.FDeriv.Add
import Mathlib.Analysis.Calculus.FDeriv.Mul
import Mathlib.Analysis.SpecialFunctions.ExpDeriv
import Mathlib.Analysis.SpecialFunctions.Log.Deriv

namespace Oecophylla.Lib

open scoped BigOperators

/-!
# Library — the derivative of attention

Rows of queries, keys and values give scores, the scores give weights by softmax, and every row gets
the weighted sum of the values.  The derivative of a linear function of the outputs, whose
coefficients are `grad`, is computed backwards, layer by layer.

* `hasFDerivAt_softmax` — the derivative of a softmax;
* `sum_smul_softmax`, `sum_smul_scores` — softmax and scores backwards;
* `hasFDerivAt_attention` — attention backwards.
-/

/-! ### Softmax -/

section Softmax

variable {ι E : Type*} [NormedAddCommGroup E] [NormedSpace ℝ E]

/-- A softmax as an exponential. -/
theorem softmax_eq_exp {s : Finset ι} (hs : s.Nonempty) (f : ι → ℝ) (i : ι) :
    softmax Real.exp s f i = Real.exp (f i - Real.log (∑ j ∈ s, Real.exp (f j))) := by
  have hpos : 0 < ∑ j ∈ s, Real.exp (f j) := Finset.sum_pos (fun j _ => Real.exp_pos (f j)) hs
  unfold softmax
  rw [Real.exp_sub, Real.exp_log hpos]

/-- **The derivative of a softmax.** -/
theorem hasFDerivAt_softmax {s : Finset ι} (hs : s.Nonempty) {f : E → ι → ℝ}
    {f' : ι → E →L[ℝ] ℝ} {x : E} (hf : ∀ i, HasFDerivAt (fun y => f y i) (f' i) x) (i : ι) :
    HasFDerivAt (fun y => softmax Real.exp s (f y) i)
      (softmax Real.exp s (f x) i • (f' i - ∑ j ∈ s, softmax Real.exp s (f x) j • f' j)) x := by
  have hpos : 0 < ∑ j ∈ s, Real.exp (f x j) := Finset.sum_pos (fun j _ => Real.exp_pos (f x j)) hs
  have hsum : HasFDerivAt (fun y => ∑ j ∈ s, Real.exp (f y j))
      (∑ j ∈ s, Real.exp (f x j) • f' j) x := HasFDerivAt.fun_sum fun j _ => (hf j).exp
  have hexp := ((hf i).fun_sub (hsum.log hpos.ne')).exp
  -- the derivative of the logarithm is the mean of the others by weight
  have hweights : (∑ j ∈ s, Real.exp (f x j))⁻¹ • ∑ j ∈ s, Real.exp (f x j) • f' j
      = ∑ j ∈ s, softmax Real.exp s (f x) j • f' j := by
    rw [Finset.smul_sum]
    refine Finset.sum_congr rfl fun j _ => ?_
    unfold softmax
    rw [smul_smul, inv_mul_eq_div]
  rw [hweights] at hexp
  simpa only [softmax_eq_exp hs] using hexp

/-- A softmax backwards: what the coefficients of the weights are for the scores. -/
theorem sum_smul_softmax {M : Type*} [AddCommGroup M] [Module ℝ M] (s : Finset ι) (a g : ι → ℝ)
    (f' : ι → M) :
    ∑ m ∈ s, g m • (a m • (f' m - ∑ j ∈ s, a j • f' j))
      = ∑ m ∈ s, (a m * (g m - ∑ j ∈ s, a j * g j)) • f' m := by
  have hleft : ∀ m, g m • (a m • (f' m - ∑ j ∈ s, a j • f' j))
      = (a m * g m) • f' m - (a m * g m) • ∑ j ∈ s, a j • f' j := by
    intro m
    rw [smul_smul, smul_sub, mul_comm]
  have hright : ∀ m, (a m * (g m - ∑ j ∈ s, a j * g j)) • f' m
      = (a m * g m) • f' m - (∑ j ∈ s, a j * g j) • a m • f' m := by
    intro m
    rw [mul_sub, sub_smul, smul_smul, mul_comm (a m) (∑ j ∈ s, a j * g j)]
  simp only [hleft, hright, Finset.sum_sub_distrib]
  rw [← Finset.sum_smul, ← Finset.smul_sum]

end Softmax

/-! ### Scores and weights -/

namespace Attention

variable {ι κ : Type*} [Fintype κ]

/-- The scores of a row: products of its query with the keys. -/
noncomputable def scores (c : ℝ) (query key : ι → κ → ℝ) (l m : ι) : ℝ :=
  (∑ k, query l k * key m k) / c

/-- The weights of a row. -/
noncomputable def weights (s : Finset ι) (c : ℝ) (query key : ι → κ → ℝ) (l m : ι) : ℝ :=
  softmax Real.exp s (scores c query key l) m

/-- The output of a row. -/
noncomputable def context (s : Finset ι) (c : ℝ) (query key value : ι → κ → ℝ) (l : ι) (k : κ) :
    ℝ :=
  ∑ m ∈ s, weights s c query key l m * value m k

/-! ### Backwards -/

/-- The coefficients of the weights. -/
def gradWeights (value grad : ι → κ → ℝ) (l m : ι) : ℝ := ∑ k, grad l k * value m k

/-- The coefficients of the scores. -/
def gradScores (s : Finset ι) (weights gradWeights : ι → ι → ℝ) (l m : ι) : ℝ :=
  weights l m * (gradWeights l m - ∑ j ∈ s, weights l j * gradWeights l j)

/-- The coefficients of the queries. -/
noncomputable def gradQuery (s : Finset ι) (c : ℝ) (gradScores : ι → ι → ℝ) (key : ι → κ → ℝ)
    (l : ι) (k : κ) : ℝ :=
  (∑ m ∈ s, gradScores l m * key m k) * (1 / c)

/-- The coefficients of the keys. -/
noncomputable def gradKey (s : Finset ι) (c : ℝ) (gradScores : ι → ι → ℝ) (query : ι → κ → ℝ)
    (m : ι) (k : κ) : ℝ :=
  (∑ l ∈ s, gradScores l m * query l k) * (1 / c)

/-- The coefficients of the values. -/
def gradValue (s : Finset ι) (weights : ι → ι → ℝ) (grad : ι → κ → ℝ) (m : ι) (k : κ) : ℝ :=
  ∑ l ∈ s, weights l m * grad l k

section Rules

variable {M : Type*} [AddCommGroup M] [Module ℝ M] (s : Finset ι)

/-- The scores backwards. -/
theorem sum_smul_scores (c : ℝ) (g : ι → ι → ℝ) (query key : ι → κ → ℝ) (query' key' : ι → κ → M) :
    ∑ l ∈ s, ∑ m ∈ s, g l m • ((1 / c) • ∑ k, (query l k • key' m k + key m k • query' l k))
      = ∑ l ∈ s, ∑ k, gradQuery s c g key l k • query' l k
        + ∑ m ∈ s, ∑ k, gradKey s c g query m k • key' m k := by
  have hterm : ∀ l m, g l m • ((1 / c) • ∑ k, (query l k • key' m k + key m k • query' l k))
      = ∑ k, (g l m * key m k * (1 / c)) • query' l k
        + ∑ k, (g l m * query l k * (1 / c)) • key' m k := by
    intro l m
    rw [smul_smul, Finset.smul_sum, ← Finset.sum_add_distrib]
    refine Finset.sum_congr rfl fun k _ => ?_
    rw [smul_add, smul_smul, smul_smul, add_comm]
    congr 2 <;> ring
  simp only [hterm]
  simp only [Finset.sum_add_distrib]
  congr 1
  · refine Finset.sum_congr rfl fun l _ => ?_
    rw [Finset.sum_comm]
    refine Finset.sum_congr rfl fun k _ => ?_
    unfold gradQuery
    rw [Finset.sum_mul, Finset.sum_smul]
  · rw [Finset.sum_comm]
    refine Finset.sum_congr rfl fun m _ => ?_
    rw [Finset.sum_comm]
    refine Finset.sum_congr rfl fun k _ => ?_
    unfold gradKey
    rw [Finset.sum_mul, Finset.sum_smul]

/-- The weighted sums backwards. -/
theorem sum_smul_context (a : ι → ι → ℝ) (value grad : ι → κ → ℝ) (a' : ι → ι → M)
    (value' : ι → κ → M) :
    ∑ l ∈ s, ∑ k, grad l k • ∑ m ∈ s, (a l m • value' m k + value m k • a' l m)
      = ∑ l ∈ s, ∑ m ∈ s, gradWeights value grad l m • a' l m
        + ∑ m ∈ s, ∑ k, gradValue s a grad m k • value' m k := by
  have hterm : ∀ l k, grad l k • ∑ m ∈ s, (a l m • value' m k + value m k • a' l m)
      = ∑ m ∈ s, (grad l k * value m k) • a' l m
        + ∑ m ∈ s, (a l m * grad l k) • value' m k := by
    intro l k
    rw [Finset.smul_sum, ← Finset.sum_add_distrib]
    refine Finset.sum_congr rfl fun m _ => ?_
    rw [smul_add, smul_smul, smul_smul, add_comm, mul_comm (grad l k) (a l m)]
  simp only [hterm]
  simp only [Finset.sum_add_distrib]
  congr 1
  · refine Finset.sum_congr rfl fun l _ => ?_
    rw [Finset.sum_comm]
    refine Finset.sum_congr rfl fun m _ => ?_
    unfold gradWeights
    rw [Finset.sum_smul]
  · have hcomm : ∀ l, ∑ k, ∑ m ∈ s, (a l m * grad l k) • value' m k
        = ∑ m ∈ s, ∑ k, (a l m * grad l k) • value' m k := fun l => Finset.sum_comm
    simp only [hcomm]
    rw [Finset.sum_comm]
    refine Finset.sum_congr rfl fun m _ => ?_
    rw [Finset.sum_comm]
    refine Finset.sum_congr rfl fun k _ => ?_
    unfold gradValue
    rw [Finset.sum_smul]

/-- A projection backwards. -/
theorem sum_smul_project {δ : Type*} [Fintype δ] (row : ι → δ → ℝ) (g : ι → κ → ℝ)
    (weight' : δ → κ → M) :
    ∑ l ∈ s, ∑ k, g l k • ∑ d, row l d • weight' d k
      = ∑ d, ∑ k, (∑ l ∈ s, row l d * g l k) • weight' d k := by
  have hterm : ∀ l k, g l k • ∑ d, row l d • weight' d k
      = ∑ d, (row l d * g l k) • weight' d k := by
    intro l k
    rw [Finset.smul_sum]
    refine Finset.sum_congr rfl fun d _ => ?_
    rw [smul_smul, mul_comm]
  have hcomm : ∀ l, ∑ k, ∑ d, (row l d * g l k) • weight' d k
      = ∑ d, ∑ k, (row l d * g l k) • weight' d k := fun l => Finset.sum_comm
  simp only [hterm, hcomm]
  rw [Finset.sum_comm]
  refine Finset.sum_congr rfl fun d _ => ?_
  rw [Finset.sum_comm]
  refine Finset.sum_congr rfl fun k _ => ?_
  rw [Finset.sum_smul]

end Rules

/-! ### The derivative -/

section Derivative

variable {E : Type*} [NormedAddCommGroup E] [NormedSpace ℝ E] {s : Finset ι} {c : ℝ}
  {query key value : E → ι → κ → ℝ} {query' key' value' : ι → κ → E →L[ℝ] ℝ} {x : E}

theorem hasFDerivAt_scores (hquery : ∀ l k, HasFDerivAt (fun y => query y l k) (query' l k) x)
    (hkey : ∀ l k, HasFDerivAt (fun y => key y l k) (key' l k) x) (l m : ι) :
    HasFDerivAt (fun y => scores c (query y) (key y) l m)
      ((1 / c) • ∑ k, (query x l k • key' m k + key x m k • query' l k)) x := by
  have hsum : HasFDerivAt (fun y => ∑ k, query y l k * key y m k)
      (∑ k, (query x l k • key' m k + key x m k • query' l k)) x :=
    HasFDerivAt.fun_sum fun k _ => (hquery l k).mul (hkey m k)
  have hscores : (fun y => scores c (query y) (key y) l m)
      = fun y => (1 / c) * ∑ k, query y l k * key y m k := by
    ext y
    unfold scores
    rw [one_div_mul_eq_div]
  rw [hscores]
  exact hsum.const_mul (1 / c)

/-- **Attention backwards.**  The derivative of a linear function of the outputs of attention, from
    those of its queries, keys and values. -/
theorem hasFDerivAt_attention (hs : s.Nonempty)
    (hquery : ∀ l k, HasFDerivAt (fun y => query y l k) (query' l k) x)
    (hkey : ∀ l k, HasFDerivAt (fun y => key y l k) (key' l k) x)
    (hvalue : ∀ l k, HasFDerivAt (fun y => value y l k) (value' l k) x) (grad : ι → κ → ℝ) :
    HasFDerivAt (fun y => ∑ l ∈ s, ∑ k, grad l k * context s c (query y) (key y) (value y) l k)
      (∑ l ∈ s, ∑ k, gradQuery s c (gradScores s (weights s c (query x) (key x))
            (gradWeights (value x) grad)) (key x) l k • query' l k
        + ∑ m ∈ s, ∑ k, gradKey s c (gradScores s (weights s c (query x) (key x))
            (gradWeights (value x) grad)) (query x) m k • key' m k
        + ∑ m ∈ s, ∑ k, gradValue s (weights s c (query x) (key x)) grad m k • value' m k) x := by
  let scores' : ι → ι → E →L[ℝ] ℝ := fun l m =>
    (1 / c) • ∑ k, (query x l k • key' m k + key x m k • query' l k)
  let a := weights s c (query x) (key x)
  let weights' : ι → ι → E →L[ℝ] ℝ := fun l m =>
    a l m • (scores' l m - ∑ j ∈ s, a l j • scores' l j)
  have hweights : ∀ l m,
      HasFDerivAt (fun y => weights s c (query y) (key y) l m) (weights' l m) x := fun l m =>
    hasFDerivAt_softmax hs (hasFDerivAt_scores hquery hkey l) m
  have hcontext : HasFDerivAt
      (fun y => ∑ l ∈ s, ∑ k, grad l k * context s c (query y) (key y) (value y) l k)
      (∑ l ∈ s, ∑ k, grad l k • ∑ m ∈ s, (a l m • value' m k + value x m k • weights' l m)) x := by
    refine HasFDerivAt.fun_sum fun l _ => HasFDerivAt.fun_sum fun k _ => ?_
    refine HasFDerivAt.const_mul ?_ (grad l k)
    exact HasFDerivAt.fun_sum fun m _ => (hweights l m).mul (hvalue m k)
  -- backwards through the weighted sums, the weights and the scores
  have hsoftmax : ∀ l ∈ s, ∑ m ∈ s, gradWeights (value x) grad l m • weights' l m
      = ∑ m ∈ s, gradScores s a (gradWeights (value x) grad) l m • scores' l m :=
    fun l _ => sum_smul_softmax s (a l) (gradWeights (value x) grad l) (scores' l)
  rw [sum_smul_context s a (value x) grad weights' value', Finset.sum_congr rfl hsoftmax,
    sum_smul_scores s c _ (query x) (key x) query' key'] at hcontext
  exact hcontext

end Derivative

end Attention

end Oecophylla.Lib
