import Oecophylla.Lib.Attention
import Oecophylla.Ranker.Calibration
import Oecophylla.Ranker.Pairwise

namespace Oecophylla.Ranker

open scoped BigOperators
open NRMSLikeRanker
open Lib

/-!
# The backward pass is the gradient

The loss of an epoch is the mean log-loss of its pairs, as a function of the three projections.

* `IsGradient` — the derivative is the product with a gradient;
* `hasFDerivAt_userVector` — `backwardHistory` takes a linear function of the user back to the
  projections;
* `isGradient_pairLoss` — the gradient of a pair;
* `trainPairwiseEpoch_gradient` — an epoch is a step against the gradient of its loss.
-/

/-- The query, key and value projections. -/
abbrev Projections (heads width : Nat) :=
  Projection ℝ heads width × Projection ℝ heads width × Projection ℝ heads width

section Gradient

variable {heads width : Nat}

/-- The product of all entries. -/
noncomputable def dot (G δ : Projections heads width) : ℝ :=
  ∑ h, (∑ d, ∑ k, G.1 h d k * δ.1 h d k + ∑ d, ∑ k, G.2.1 h d k * δ.2.1 h d k
    + ∑ d, ∑ k, G.2.2 h d k * δ.2.2 h d k)

/-- **A gradient.**  The derivative of the loss in a direction is its product with the gradient. -/
def IsGradient (loss : Projections heads width → ℝ) (θ G : Projections heads width) : Prop :=
  ∃ loss' : Projections heads width →L[ℝ] ℝ, HasFDerivAt loss loss' θ ∧ ∀ δ, loss' δ = dot G δ

/-- The projections of a ranker. -/
def projections (ranker : NRMSLikeRanker ℝ heads width) : Projections heads width :=
  (ranker.queryProjection, ranker.keyProjection, ranker.valueProjection)

/-- The ranker with other projections. -/
noncomputable def withProjections (ranker : NRMSLikeRanker ℝ heads width)
    (θ : Projections heads width) : NRMSLikeRanker ℝ heads width :=
  withUpdatedWeights ranker θ.1 θ.2.1 θ.2.2

/-- The score of the positive candidate minus the score of the negative one. -/
noncomputable def pairGap (ranker : NRMSLikeRanker ℝ heads width)
    (pair : PairwiseExample ℝ heads width) : ℝ :=
  scoreGap (ranker.forwardHistory realFunctions (ranker.truncateHistory pair.historyEmbeddings))
    pair.positiveEmbedding pair.negativeEmbedding

/-- `log(1 + exp(-(score of positive - score of negative)))`. -/
noncomputable def pairLoss (ranker : NRMSLikeRanker ℝ heads width)
    (pair : PairwiseExample ℝ heads width) (θ : Projections heads width) : ℝ :=
  Real.log (1 + Real.exp (-pairGap (withProjections ranker θ) pair))

/-- The mean over the pairs. -/
noncomputable def meanLoss (ranker : NRMSLikeRanker ℝ heads width)
    (pairs : List (PairwiseExample ℝ heads width)) (θ : Projections heads width) : ℝ :=
  (pairs.map fun pair => pairLoss ranker pair θ).sum / pairs.length

/-! ### Gradients -/

theorem dot_add (G H δ : Projections heads width) : dot (G + H) δ = dot G δ + dot H δ := by
  unfold dot
  simp only [Prod.fst_add, Prod.snd_add, Pi.add_apply, add_mul, Finset.sum_add_distrib]
  ring

theorem dot_smul (c : ℝ) (G δ : Projections heads width) : dot (c • G) δ = c * dot G δ := by
  unfold dot
  simp only [Prod.smul_fst, Prod.smul_snd, Pi.smul_apply, smul_eq_mul, mul_assoc, ← Finset.mul_sum,
    ← mul_add]

theorem dot_zero (δ : Projections heads width) : dot 0 δ = 0 := by
  simp [dot]

theorem eq_zero_of_dot_self {G : Projections heads width} (h : dot G G = 0) : G = 0 := by
  have hnonneg : ∀ (p : Projection ℝ heads width) h, 0 ≤ ∑ d, ∑ k, p h d k * p h d k :=
    fun p h => Finset.sum_nonneg fun d _ => Finset.sum_nonneg fun k _ => mul_self_nonneg _
  have hzero : ∀ (p : Projection ℝ heads width) h, ∑ d, ∑ k, p h d k * p h d k = 0 → p h = 0 := by
    intro p h hsum
    ext d k
    rw [Finset.sum_eq_zero_iff_of_nonneg fun d _ =>
      Finset.sum_nonneg fun k _ => mul_self_nonneg _] at hsum
    have hd := hsum d (Finset.mem_univ d)
    rw [Finset.sum_eq_zero_iff_of_nonneg fun k _ => mul_self_nonneg _] at hd
    exact mul_self_eq_zero.mp (hd k (Finset.mem_univ k))
  unfold dot at h
  rw [Finset.sum_eq_zero_iff_of_nonneg fun h _ =>
    add_nonneg (add_nonneg (hnonneg G.1 h) (hnonneg G.2.1 h)) (hnonneg G.2.2 h)] at h
  -- a sum of squares is zero where each of them is
  have hparts : ∀ i, G.1 i = 0 ∧ G.2.1 i = 0 ∧ G.2.2 i = 0 := by
    intro i
    have hi := h i (Finset.mem_univ i)
    have hquery := hnonneg G.1 i
    have hkey := hnonneg G.2.1 i
    have hvalue := hnonneg G.2.2 i
    exact ⟨hzero G.1 i (by linarith), hzero G.2.1 i (by linarith), hzero G.2.2 i (by linarith)⟩
  exact Prod.ext (funext fun i => (hparts i).1)
    (Prod.ext (funext fun i => (hparts i).2.1) (funext fun i => (hparts i).2.2))

/-- A gradient is determined by the loss. -/
theorem IsGradient.unique {loss : Projections heads width → ℝ} {θ G H : Projections heads width}
    (hG : IsGradient loss θ G) (hH : IsGradient loss θ H) : G = H := by
  obtain ⟨loss₁, hloss₁, hdot₁⟩ := hG
  obtain ⟨loss₂, hloss₂, hdot₂⟩ := hH
  have hzero : dot (G + (-1 : ℝ) • H) (G + (-1 : ℝ) • H) = 0 := by
    rw [dot_add, dot_smul, ← hdot₁, ← hdot₂, hloss₁.unique hloss₂]
    ring
  have hsub := eq_zero_of_dot_self hzero
  rwa [neg_one_smul, add_neg_eq_zero] at hsub

section Rules

variable {loss loss₂ : Projections heads width → ℝ} {θ G H : Projections heads width}

theorem isGradient_zero (c : ℝ) : IsGradient (fun _ : Projections heads width => c) θ 0 :=
  ⟨0, hasFDerivAt_const c θ, fun δ => (dot_zero δ).symm⟩

theorem IsGradient.add (h : IsGradient loss θ G) (h₂ : IsGradient loss₂ θ H) :
    IsGradient (fun φ => loss φ + loss₂ φ) θ (G + H) := by
  obtain ⟨loss', hloss, hdot⟩ := h
  obtain ⟨loss₂', hloss₂, hdot₂⟩ := h₂
  refine ⟨loss' + loss₂', hloss.add hloss₂, fun δ => ?_⟩
  rw [add_apply, hdot, hdot₂, dot_add]

theorem IsGradient.const_mul (h : IsGradient loss θ G) (c : ℝ) :
    IsGradient (fun φ => c * loss φ) θ (c • G) := by
  obtain ⟨loss', hloss, hdot⟩ := h
  refine ⟨c • loss', hloss.const_mul c, fun δ => ?_⟩
  rw [smul_apply, hdot, dot_smul, smul_eq_mul]

/-- A function of one that has a gradient. -/
theorem IsGradient.comp {f : ℝ → ℝ} {f' : ℝ} (h : IsGradient loss θ G)
    (hf : HasDerivAt f f' (loss θ)) : IsGradient (fun φ => f (loss φ)) θ (f' • G) := by
  obtain ⟨loss', hloss, hdot⟩ := h
  refine ⟨f' • loss', hf.comp_hasFDerivAt θ hloss, fun δ => ?_⟩
  rw [smul_apply, hdot, dot_smul, smul_eq_mul]

theorem IsGradient.sum {α : Type*} {losses : α → Projections heads width → ℝ}
    {gradients : α → Projections heads width} {l : List α}
    (h : ∀ a ∈ l, IsGradient (losses a) θ (gradients a)) :
    IsGradient (fun φ => (l.map fun a => losses a φ).sum) θ (l.map gradients).sum := by
  induction l with
  | nil => exact isGradient_zero 0
  | cons a l ih =>
    have ha := h a List.mem_cons_self
    have hl := ih fun b hb => h b (List.mem_cons_of_mem a hb)
    simpa using ha.add hl

end Rules

/-! ### One head -/

/-- An entry of a projection. -/
def entry (h : Fin heads) (d : Fin (heads * width)) (k : Fin width) :
    Projection ℝ heads width →L[ℝ] ℝ where
  toFun projection := projection h d k
  map_add' _ _ := rfl
  map_smul' _ _ := rfl
  cont := by fun_prop

theorem entries_apply (part : Projections heads width →L[ℝ] Projection ℝ heads width)
    (h : Fin heads) (g : Fin (heads * width) → Fin width → ℝ) (δ : Projections heads width) :
    (∑ d, ∑ k, g d k • (entry h d k).comp part) δ = ∑ d, ∑ k, g d k * part δ h d k := by
  simp only [sum_apply, smul_apply]
  rfl

/-- The projections, one by one. -/
def queryPart : Projections heads width →L[ℝ] Projection ℝ heads width :=
  ContinuousLinearMap.fst ℝ _ _

def keyPart : Projections heads width →L[ℝ] Projection ℝ heads width :=
  (ContinuousLinearMap.fst ℝ _ _).comp (ContinuousLinearMap.snd ℝ _ _)

def valuePart : Projections heads width →L[ℝ] Projection ℝ heads width :=
  (ContinuousLinearMap.snd ℝ _ _).comp (ContinuousLinearMap.snd ℝ _ _)

/-- The queries, keys and values of a head are linear in the projections. -/
theorem hasFDerivAt_project (part : Projections heads width →L[ℝ] Projection ℝ heads width)
    (h : Fin heads) (row : Embedding ℝ heads width) (k : Fin width) (θ : Projections heads width) :
    HasFDerivAt (fun φ => project (part φ h) row k)
      (∑ d, row d • (entry h d k).comp part) θ :=
  HasFDerivAt.fun_sum fun d _ => ((entry h d k).comp part).hasFDerivAt.const_mul (row d)

section Head

variable (length : Nat) (rows : Nat → Embedding ℝ heads width) (h : Fin heads)

/-- The maximum does not change the weights. -/
theorem attentionWeights_eq (query key : Nat → Fin width → ℝ) (l m : Nat) :
    attentionWeights realFunctions length (attentionScores realFunctions query key l) m
      = Attention.weights (Finset.range length) (Real.sqrt width) query key l m :=
  softmax_sub realFunctions.exp_add realFunctions.exp_ne_zero (Finset.range length)
    (attentionScores realFunctions query key l) _ m

theorem headContext_eq (query key value : Nat → Fin width → ℝ) (l : Nat) (k : Fin width) :
    headContext realFunctions length query key value l k
      = Attention.context (Finset.range length) (Real.sqrt width) query key value l k :=
  Finset.sum_congr rfl fun m _ =>
    congrArg (· * value m k) (attentionWeights_eq length query key l m)

/-- A row of a head, as a function of the projections. -/
noncomputable def headOutput (φ : Projections heads width) (l : Nat) : Fin width → ℝ :=
  headContext realFunctions length (fun l => project (φ.1 h) (rows l))
    (fun l => project (φ.2.1 h) (rows l)) (fun l => project (φ.2.2 h) (rows l)) l

/-- The head in the cache. -/
noncomputable def headCache (φ : Projections heads width) : HeadCache ℝ width where
  query := fun l => project (φ.1 h) (rows l)
  key := fun l => project (φ.2.1 h) (rows l)
  value := fun l => project (φ.2.2 h) (rows l)
  attention := fun l => attentionWeights realFunctions length
    (attentionScores realFunctions (fun l => project (φ.1 h) (rows l))
      (fun l => project (φ.2.1 h) (rows l)) l)

theorem sum_smul_entry (part : Projections heads width →L[ℝ] Projection ℝ heads width)
    (g : Nat → Fin width → ℝ) :
    ∑ l ∈ Finset.range length, ∑ k, g l k • ∑ d, rows l d • (entry h d k).comp part
      = ∑ d, ∑ k, (∑ l ∈ Finset.range length, rows l d * g l k) • (entry h d k).comp part :=
  Attention.sum_smul_project (Finset.range length) rows g fun d k => (entry h d k).comp part

/-- `backwardHead` goes backwards through the attention of a head. -/
theorem hasFDerivAt_headOutput (hlength : 0 < length) (g : Nat → Fin width → ℝ)
    (θ : Projections heads width) :
    HasFDerivAt
      (fun φ => ∑ l ∈ Finset.range length, ∑ k, g l k * headOutput length rows h φ l k)
      (let G := backwardHead realFunctions length rows (headCache length rows h θ) g
       ∑ d, ∑ k, G.1 d k • (entry h d k).comp queryPart
        + ∑ d, ∑ k, G.2.1 d k • (entry h d k).comp keyPart
        + ∑ d, ∑ k, G.2.2 d k • (entry h d k).comp valuePart) θ := by
  -- the backward pass reads the weights that the forward pass has kept
  have hattention : (headCache length rows h θ).attention
      = Attention.weights (Finset.range length) (Real.sqrt width) (headCache length rows h θ).query
          (headCache length rows h θ).key := by
    ext l m
    exact attentionWeights_eq length _ _ l m
  have hderiv := Attention.hasFDerivAt_attention (c := Real.sqrt width) (x := θ)
    (Finset.nonempty_range_iff.mpr hlength.ne')
    (fun l k => hasFDerivAt_project queryPart h (rows l) k θ)
    (fun l k => hasFDerivAt_project keyPart h (rows l) k θ)
    (fun l k => hasFDerivAt_project valuePart h (rows l) k θ) g
  rw [sum_smul_entry, sum_smul_entry, sum_smul_entry] at hderiv
  unfold backwardHead
  rw [hattention]
  simp only [headOutput, headContext_eq]
  exact hderiv

end Head

/-! ### The user vector -/

section User

variable (ranker : NRMSLikeRanker ℝ heads width) (embeddings : List (Embedding ℝ heads width))

/-- The positioned rows. -/
noncomputable def rowsOf : Nat → Embedding ℝ heads width :=
  positioned realFunctions ranker.architecture fun l => embeddings.getD l 0

/-- A linear function of the user, as a function of the outputs of the heads. -/
theorem sum_mul_forwardHistory (gradUser : Embedding ℝ heads width) (φ : Projections heads width) :
    ∑ d, gradUser d * (withProjections ranker φ).forwardHistory realFunctions embeddings d
      = ∑ h, ∑ l ∈ Finset.range embeddings.length, ∑ k,
            (1 - ranker.architecture.semanticResidual) * gradUser (finProdFinEquiv (h, k))
              / embeddings.length * headOutput embeddings.length (rowsOf ranker embeddings) h φ l k
        + ∑ d, gradUser d * (ranker.architecture.semanticResidual
            * meanRows embeddings.length (fun l => embeddings.getD l 0) d) := by
  have hentry : ∀ d, gradUser d
        * (withProjections ranker φ).forwardHistory realFunctions embeddings d
      = ∑ l ∈ Finset.range embeddings.length,
          (1 - ranker.architecture.semanticResidual) * gradUser d / embeddings.length
            * concatenate (fun h =>
                headOutput embeddings.length (rowsOf ranker embeddings) h φ l) d
        + gradUser d * (ranker.architecture.semanticResidual
            * meanRows embeddings.length (fun l => embeddings.getD l 0) d) := by
    intro d
    rw [← Finset.mul_sum]
    show gradUser d * ((1 - ranker.architecture.semanticResidual)
        * ((∑ l ∈ Finset.range embeddings.length, concatenate (fun h =>
            headOutput embeddings.length (rowsOf ranker embeddings) h φ l) d) / embeddings.length)
        + ranker.architecture.semanticResidual
          * meanRows embeddings.length (fun l => embeddings.getD l 0) d) = _
    ring
  simp only [hentry, Finset.sum_add_distrib]
  congr 1
  -- the entries of the user are those of the heads
  rw [← Equiv.sum_comp finProdFinEquiv, Fintype.sum_prod_type]
  refine Finset.sum_congr rfl fun h _ => ?_
  rw [Finset.sum_comm]
  refine Finset.sum_congr rfl fun l _ => Finset.sum_congr rfl fun k _ => ?_
  unfold concatenate
  rw [Equiv.symm_apply_apply]

/-- **`_backward_history`** takes a linear function of the user back to the projections. -/
theorem isGradient_backwardHistory (h : embeddings ≠ []) (gradUser : Embedding ℝ heads width) :
    IsGradient
      (fun φ => ∑ d,
        gradUser d * (withProjections ranker φ).forwardHistory realFunctions embeddings d)
      (projections ranker)
      (backwardHistory realFunctions ranker (forwardCache realFunctions ranker embeddings)
        gradUser) := by
  have hheads := HasFDerivAt.fun_sum (u := Finset.univ) fun (i : Fin heads) _ =>
    hasFDerivAt_headOutput embeddings.length (rowsOf ranker embeddings) i
      (List.length_pos_iff.mpr h)
      (fun _ k => (1 - ranker.architecture.semanticResidual) * gradUser (finProdFinEquiv (i, k))
        / embeddings.length) (projections ranker)
  simp only [sum_mul_forwardHistory]
  refine ⟨_, hheads.add_const _, fun δ => ?_⟩
  rw [sum_apply]
  refine Finset.sum_congr rfl fun i _ => ?_
  dsimp only
  rw [add_apply, add_apply, entries_apply, entries_apply, entries_apply]
  rfl

end User

/-! ### A pair -/

section Pair

variable (ranker : NRMSLikeRanker ℝ heads width) (pair : PairwiseExample ℝ heads width)

/-- The user of a pair is the one for whom pages are scored. -/
theorem pairGap_eq_rawScore (h : pair.historyEmbeddings ≠ [])
    (declared : Option (Embedding ℝ heads width)) :
    pairGap ranker pair
      = rawScore (ranker.prepareUserContext realFunctions pair.historyEmbeddings declared).vector
          pair.positiveEmbedding
        - rawScore (ranker.prepareUserContext realFunctions pair.historyEmbeddings declared).vector
          pair.negativeEmbedding := by
  unfold prepareUserContext
  rw [dif_pos h]
  rfl

/-- What a pair adds to the gradients. -/
noncomputable def pairGradient : Projections heads width :=
  backwardHistory realFunctions ranker
    (forwardCache realFunctions ranker (ranker.truncateHistory pair.historyEmbeddings)) fun d =>
      (sigmoid realFunctions (pairGap ranker pair) - 1)
        * (pair.positiveEmbedding d - pair.negativeEmbedding d)

/-- The signal is the slope of the loss, unless the sigmoid is clipped. -/
theorem hasDerivAt_pairLoss {gap : ℝ} (hclip : |gap| ≤ 60) :
    HasDerivAt (fun x => Real.log (1 + Real.exp (-x))) (sigmoid realFunctions gap - 1) gap := by
  have hinside := abs_le.mp hclip
  have hsignal : sigmoid realFunctions gap - 1 = Real.sigmoid (-gap) * -1 := by
    rw [sigmoid_realFunctions, max_eq_right hinside.1, min_eq_right hinside.2, Real.sigmoid_neg]
    ring
  rw [hsignal]
  exact (hasDerivAt_softplus (-gap)).comp gap (hasDerivAt_neg gap)

theorem signal_ne_zero (gap : ℝ) : sigmoid realFunctions gap - 1 ≠ 0 := by
  rw [sigmoid_realFunctions, sub_ne_zero]
  exact (Real.sigmoid_lt_one _).ne

/-- **The gradient of a pair.** -/
theorem isGradient_pairLoss (h : pair.historyEmbeddings ≠ []) (hclip : |pairGap ranker pair| ≤ 60) :
    IsGradient (pairLoss ranker pair) (projections ranker) (pairGradient ranker pair) := by
  have hne := signal_ne_zero (pairGap ranker pair)
  have hlinear := isGradient_backwardHistory ranker _ (ranker.truncateHistory_ne_nil h) fun d =>
    (sigmoid realFunctions (pairGap ranker pair) - 1)
      * (pair.positiveEmbedding d - pair.negativeEmbedding d)
  -- the linear function is the signal times the gap
  have hgap : ∀ φ, (sigmoid realFunctions (pairGap ranker pair) - 1)⁻¹
        * ∑ d, (sigmoid realFunctions (pairGap ranker pair) - 1)
          * (pair.positiveEmbedding d - pair.negativeEmbedding d)
          * (withProjections ranker φ).forwardHistory realFunctions
            (ranker.truncateHistory pair.historyEmbeddings) d
      = pairGap (withProjections ranker φ) pair := by
    intro φ
    simp only [mul_assoc]
    rw [← Finset.mul_sum, inv_mul_cancel_left₀ hne]
    unfold pairGap scoreGap rawScore
    rw [← Finset.sum_sub_distrib]
    refine Finset.sum_congr rfl fun d _ => ?_
    rw [sub_mul, mul_comm, mul_comm (pair.negativeEmbedding d)]
    rfl
  -- the slope of the loss puts back the signal that was divided out
  have hscaled := hlinear.const_mul (sigmoid realFunctions (pairGap ranker pair) - 1)⁻¹
  simp only [hgap] at hscaled
  have hslope := hasDerivAt_pairLoss hclip
  have hloss := hscaled.comp hslope
  rwa [smul_inv_smul₀ hne] at hloss

end Pair

/-! ### An epoch -/

section Epoch

variable (ranker : NRMSLikeRanker ℝ heads width)

/-- The pairs with a history. -/
def trainedPairs (examples : List (PairwiseExample ℝ heads width)) :
    List (PairwiseExample ℝ heads width) :=
  examples.filter fun pair => !pair.historyEmbeddings.isEmpty

theorem foldl_accumulate (examples : List (PairwiseExample ℝ heads width))
    (s : EpochState ℝ heads width) :
    examples.foldl (accumulate realFunctions ranker) s
      = { gradQuery := s.gradQuery + ((trainedPairs examples).map (pairGradient ranker)).sum.1
          gradKey := s.gradKey + ((trainedPairs examples).map (pairGradient ranker)).sum.2.1
          gradValue := s.gradValue + ((trainedPairs examples).map (pairGradient ranker)).sum.2.2
          updated := s.updated + (trainedPairs examples).length } := by
  induction examples generalizing s with
  | nil => simp [trainedPairs]
  | cons pair examples ih =>
    rw [List.foldl_cons, ih]
    -- a pair without a history leaves the accumulators as they are
    by_cases hempty : pair.historyEmbeddings.isEmpty
    · have htrained : trainedPairs (pair :: examples) = trainedPairs examples := by
        simp [trainedPairs, hempty]
      unfold accumulate
      rw [if_pos hempty, htrained]
    · have htrained : trainedPairs (pair :: examples) = pair :: trainedPairs examples := by
        simp [trainedPairs, hempty]
      have hstep : accumulate realFunctions ranker s pair
          = { gradQuery := s.gradQuery + (pairGradient ranker pair).1
              gradKey := s.gradKey + (pairGradient ranker pair).2.1
              gradValue := s.gradValue + (pairGradient ranker pair).2.2
              updated := s.updated + 1 } := if_neg hempty
      rw [hstep, htrained, List.map_cons, List.sum_cons, List.length_cons]
      simp only [Prod.fst_add, Prod.snd_add, add_assoc, add_comm 1]

theorem trainedPairs_trainedPairs (examples : List (PairwiseExample ℝ heads width)) :
    trainedPairs (trainedPairs examples) = trainedPairs examples := by
  simp [trainedPairs]

/-- **An epoch is a step of gradient descent.**  The projections move against the gradient of the
    mean loss of the pairs with a history; the others do not matter. -/
theorem trainPairwiseEpoch_gradient (examples : List (PairwiseExample ℝ heads width))
    (learningRate : ℝ) :
    trainPairwiseEpoch realFunctions ranker examples learningRate
        = trainPairwiseEpoch realFunctions ranker (trainedPairs examples) learningRate
      ∧ (trainedPairs examples = [] →
        trainPairwiseEpoch realFunctions ranker examples learningRate = ranker)
      ∧ (trainedPairs examples ≠ [] → (∀ pair ∈ trainedPairs examples, |pairGap ranker pair| ≤ 60) →
        ∃ G, IsGradient (meanLoss ranker (trainedPairs examples)) (projections ranker) G
          ∧ trainPairwiseEpoch realFunctions ranker examples learningRate
            = withProjections ranker (projections ranker - learningRate • G)) := by
  refine ⟨?_, fun hnil => ?_, fun hne hclip => ?_⟩
  · unfold trainPairwiseEpoch
    rw [foldl_accumulate, foldl_accumulate ranker (trainedPairs examples),
      trainedPairs_trainedPairs]
  · unfold trainPairwiseEpoch
    rw [foldl_accumulate, hnil]
    rfl
  · have hlength : (trainedPairs examples).length ≠ 0 := fun h => hne (List.length_eq_zero_iff.mp h)
    have hsum : IsGradient
        (fun φ => ((trainedPairs examples).map fun pair => pairLoss ranker pair φ).sum)
        (projections ranker) ((trainedPairs examples).map (pairGradient ranker)).sum := by
      refine IsGradient.sum fun pair hpair => isGradient_pairLoss ranker pair ?_ (hclip pair hpair)
      simpa [trainedPairs] using (List.mem_filter.mp hpair).2
    have hmean := hsum.const_mul ((trainedPairs examples).length : ℝ)⁻¹
    simp only [inv_mul_eq_div] at hmean
    refine ⟨_, hmean, ?_⟩
    unfold trainPairwiseEpoch
    rw [foldl_accumulate]
    dsimp only
    rw [zero_add, if_neg hlength]
    -- the accumulated gradients, divided by the number of pairs
    have hstep : ∀ projection gradient : Projection ℝ heads width,
        (fun h d k => projection h d k - learningRate
            * ((0 + gradient) h d k / ((trainedPairs examples).length : ℝ)))
          = projection - learningRate • ((trainedPairs examples).length : ℝ)⁻¹ • gradient := by
      intro projection gradient
      ext h d k
      rw [zero_add, div_eq_inv_mul]
      rfl
    rw [hstep, hstep, hstep]
    rfl

end Epoch

end Gradient

/-! ### One pair -/

/-- A ranker whose keys are all zero, so that the articles of a user count alike. -/
noncomputable def evenRanker : NRMSLikeRanker ℝ 1 1 :=
  { lineRanker with queryProjection := 1, valueProjection := 1 }

attribute [local instance] Lib.atLeastTwo_two

/-- A pair of a reader of two articles, and one of a reader of none. -/
noncomputable def warmPair : PairwiseExample ℝ 1 1 := ⟨[fun _ => 1, fun _ => 2], fun _ => 1, fun _ => 0⟩

noncomputable def coldPair : PairwiseExample ℝ 1 1 := ⟨[], fun _ => 1, fun _ => 0⟩

theorem trainedPairs_warmPair : trainedPairs [warmPair, coldPair] = [warmPair] := by
  simp [trainedPairs, warmPair, coldPair]

theorem exp_realFunctions_zero : realFunctions.exp 0 = 1 := Real.exp_zero

theorem pairGap_warmPair : pairGap evenRanker warmPair = 3 / 2 := by
  norm_num [pairGap, scoreGap, rawScore, forwardHistory, meanRows, concatenate, headContext, project,
    lineRanker, evenRanker, warmPair, truncateHistory, positioned, attentionScores, rowMax,
    Finset.sum_range_succ, List.range_succ, exp_realFunctions_zero]

/-- The gradient of the values. -/
theorem pairGradient_warmPair :
    (pairGradient evenRanker warmPair).2.2 0 0 0 = 3 / 2 * (sigmoid realFunctions (3 / 2) - 1) := by
  unfold pairGradient
  rw [pairGap_warmPair]
  norm_num [backwardHistory, backwardHead, forwardCache, attentionWeights, concatenate, project,
    lineRanker, evenRanker, warmPair, truncateHistory, positioned, attentionScores, rowMax,
    Finset.sum_range_succ, List.range_succ, exp_realFunctions_zero]
  ring

/-- One epoch on the two pairs moves the projections. -/
theorem trainPairwiseEpoch_gradient_warmPair :
    ∃ G ≠ 0, IsGradient (meanLoss evenRanker (trainedPairs [warmPair, coldPair]))
        (projections evenRanker) G
      ∧ trainPairwiseEpoch realFunctions evenRanker [warmPair, coldPair] 1
        = withProjections evenRanker (projections evenRanker - (1 : ℝ) • G) := by
  have hgap : |pairGap evenRanker warmPair| ≤ 60 := by
    rw [pairGap_warmPair]
    norm_num
  obtain ⟨G, hG, hstep⟩ := (trainPairwiseEpoch_gradient evenRanker [warmPair, coldPair] 1).2.2
    (by rw [trainedPairs_warmPair]; exact List.cons_ne_nil _ _)
    (by rw [trainedPairs_warmPair, List.forall_mem_singleton]; exact hgap)
  refine ⟨G, ?_, hG, hstep⟩
  -- the gradient of the one pair with a history
  have hpair : IsGradient (meanLoss evenRanker [warmPair]) (projections evenRanker)
      (pairGradient evenRanker warmPair) := by
    have hmean : meanLoss evenRanker [warmPair] = pairLoss evenRanker warmPair := by
      funext φ
      simp [meanLoss]
    rw [hmean]
    exact isGradient_pairLoss evenRanker warmPair (List.cons_ne_nil _ _) hgap
  rw [trainedPairs_warmPair] at hG
  rw [hG.unique hpair]
  intro hzero
  have hvalue := pairGradient_warmPair
  rw [hzero] at hvalue
  have hlt : sigmoid realFunctions (3 / 2) < 1 := by
    rw [sigmoid_realFunctions]
    exact Real.sigmoid_lt_one _
  have : (0 : ℝ) = 3 / 2 * (sigmoid realFunctions (3 / 2) - 1) := hvalue
  linarith

end Oecophylla.Ranker
