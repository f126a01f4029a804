import Oecophylla.Lib.Logistic
import Oecophylla.Ranker.TorchNrms
import Mathlib.Topology.Order.IntermediateValue

namespace Oecophylla.Ranker

open scoped BigOperators
open Lib (Example IsFit mean valuesOf)

/-!
# Probability calibration — `ai_pipeline/train.py`, `ai_pipeline/finetune.py`

A score is the sigmoid of the raw score, after it is scaled and shifted.  `train.py` takes the scale
from a logistic regression, `finetune.py` from a minimiser that chooses its logarithm.

* `NeverReverses` — a greater score is not the score of a smaller raw score;
* `neverReverses_iff` — that is so exactly when the scale is not negative;
* `calibrateRanker`, `fitCalibration` — the two calibrations;
* `calibrations_neverReverse_iff` — when neither reverses the order.

The fitters of scikit-learn and scipy are parameters; scores are exact.
-/

namespace NRMSLikeRanker

variable {heads width : Nat}

/-- `with_calibration(scale=scale, bias=bias)`. -/
def withCalibration {F : Type} [Field F] [LinearOrder F] (ranker : NRMSLikeRanker F heads width)
    (scale bias : F) : NRMSLikeRanker F heads width :=
  { ranker with
    calibrationScale := scale
    calibrationBias := bias }

/-- **The order of the candidates.**  For every user, a candidate with a strictly larger score has
    at least the raw score. -/
def NeverReverses (ranker : NRMSLikeRanker ℝ heads width) : Prop :=
  ∀ history declared candidate other,
    let user := (ranker.prepareUserContext realFunctions history declared).vector
    ranker.score realFunctions user other < ranker.score realFunctions user candidate →
      rawScore user other ≤ rawScore user candidate

end NRMSLikeRanker

open NRMSLikeRanker

/-! ### `train.py` -/

/-- A row of the validation split; articles of the history without an embedding are skipped. -/
structure ValidationRow (heads width : Nat) where
  history : List (HistoryEntry (Option (Embedding ℝ heads width)))
  declaredTopicEmbedding : Option (Embedding ℝ heads width)
  embedding : Embedding ℝ heads width
  clickLabel : Bool

section Train

variable {heads width : Nat}

/-- `raw_scores` and `labels`. -/
noncomputable def calibrationData (ranker : NRMSLikeRanker ℝ heads width)
    (validationRows : List (ValidationRow heads width)) : List Example :=
  validationRows.map fun row =>
    let historyEmbeddings := (sortedHistory row.history).filterMap HistoryEntry.embedding
    let context :=
      ranker.prepareUserContext realFunctions historyEmbeddings row.declaredTopicEmbedding
    (rawScore context.vector row.embedding, row.clickLabel)

/-- `_calibrate_ranker(ranker, validation_rows)`; `fit` is `LogisticRegression().fit`, with the
    coefficient and the intercept that it finds. -/
noncomputable def calibrateRanker (fit : List Example → ℝ × ℝ)
    (ranker : NRMSLikeRanker ℝ heads width) (validationRows : List (ValidationRow heads width)) :
    NRMSLikeRanker ℝ heads width :=
  let data := calibrationData ranker validationRows
  if (data.map Prod.snd).dedup.length < 2 then ranker
  else ranker.withCalibration (fit data).1 (fit data).2

/-- Clicked rows and others. -/
def BothLabels (validationRows : List (ValidationRow heads width)) : Prop :=
  (∃ row ∈ validationRows, row.clickLabel = true)
    ∧ ∃ row ∈ validationRows, row.clickLabel = false

instance (validationRows : List (ValidationRow heads width)) :
    Decidable (BothLabels validationRows) :=
  inferInstanceAs (Decidable (_ ∧ _))

/-- The raw scores of the rows with a label. -/
noncomputable def rawScoresOf (ranker : NRMSLikeRanker ℝ heads width)
    (validationRows : List (ValidationRow heads width)) (label : Bool) : List ℝ :=
  valuesOf (calibrationData ranker validationRows) label

end Train

/-! ### `finetune.py` -/

/-- A request of the validation split. -/
structure ValidationRequest where
  history : List Nat
  candidates : List Nat
  labels : List ℝ

/-- What `scipy.optimize.minimize` returns. -/
structure Optimum where
  success : Bool
  x : ℝ × ℝ

section Finetune

variable {heads width : Nat}

/-- `calibration_objective(parameters)`. -/
noncomputable def calibrationObjective (raw labels : List ℝ) (parameters : ℝ × ℝ) : ℝ :=
  let losses := List.zipWith (fun score label =>
    let logit := score * Real.exp parameters.1 + parameters.2
    Lib.softplus logit - label * logit) raw labels
  mean losses

/-- The calibration at the end of `fit`; `minimize` gets the objective. -/
noncomputable def fitCalibration (minimize : (ℝ × ℝ → ℝ) → Optimum)
    (best : NRMSLikeRanker ℝ heads width) (validation : List ValidationRequest)
    (vectors : Nat → Embedding ℝ heads width) : Except String (NRMSLikeRanker ℝ heads width) :=
  let validationScores := scoreRequests realFunctions best
    (validation.map fun r => (r.history, r.candidates)) vectors
  if validation = [] then .error "need at least one array to concatenate"
  else
    let raw := validationScores.flatten
    let labels := validation.flatMap ValidationRequest.labels
    let optimum := minimize (calibrationObjective raw labels)
    if optimum.success then
      .ok (best.withCalibration (Real.exp optimum.x.1) optimum.x.2)
    else .error "validation calibration did not converge"

end Finetune

/-! ### The sign of the scale -/

section Sign

variable {heads width : Nat}

theorem sigmoid_realFunctions (x : ℝ) :
    NRMSLikeRanker.sigmoid realFunctions x = Real.sigmoid (min 60 (max (-60) x)) := by
  unfold NRMSLikeRanker.sigmoid
  rw [Real.sigmoid_def, ← one_div]
  rfl

theorem sigmoid_realFunctions_mono {x y : ℝ} (h : x ≤ y) :
    NRMSLikeRanker.sigmoid realFunctions x ≤ NRMSLikeRanker.sigmoid realFunctions y := by
  rw [sigmoid_realFunctions, sigmoid_realFunctions]
  exact Real.sigmoid_le (min_le_min_left 60 (max_le_max_left (-60) h))

/-- The first entry of an embedding. -/
def firstEntry (a : NRMSArchitecture ℝ heads width) : Fin (heads * width) :=
  ⟨0, Nat.mul_pos a.heads_pos a.width_pos⟩

/-- A user and a candidate in the direction of the first entry. -/
theorem rawScore_single (d : Fin (heads * width)) (x : ℝ) :
    rawScore (Pi.single d 1) (Pi.single d x) = x := by
  unfold rawScore
  rw [Finset.sum_eq_single d]
  · simp
  · intro e _ hne
    simp [hne]
  · intro h
    exact absurd (Finset.mem_univ d) h

/-- **When calibration never reverses the order**: when its scale is not negative. -/
theorem neverReverses_iff (ranker : NRMSLikeRanker ℝ heads width) :
    ranker.NeverReverses ↔ 0 ≤ ranker.calibrationScale := by
  constructor
  · intro hnever
    by_contra hscale
    have hneg : ranker.calibrationScale < 0 := not_le.mp hscale
    let d := firstEntry ranker.architecture
    -- a raw score whose logit is zero, and a greater one
    let x := -ranker.calibrationBias / ranker.calibrationScale
    let y := x - 1 / ranker.calibrationScale
    have hx : x * ranker.calibrationScale + ranker.calibrationBias = 0 := by
      simp only [x]
      rw [div_mul_cancel₀ _ hneg.ne, neg_add_cancel]
    have hy : y * ranker.calibrationScale + ranker.calibrationBias = -1 := by
      simp only [y]
      rw [sub_mul, one_div, inv_mul_cancel₀ hneg.ne]
      linarith
    have hcontext : (ranker.prepareUserContext realFunctions [] (some (Pi.single d 1))).vector
        = Pi.single d 1 := rfl
    have hreversed := hnever [] (some (Pi.single d 1)) (Pi.single d x) (Pi.single d y)
    simp only [hcontext, score, rawScore_single, hx, hy, sigmoid_realFunctions] at hreversed
    have hlower : Real.sigmoid (min 60 (max (-60) (-1))) < Real.sigmoid (min 60 (max (-60) 0)) :=
      Real.sigmoid_lt (by norm_num)
    have hlt : x < y := by
      have hinv : 1 / ranker.calibrationScale < 0 := one_div_neg.mpr hneg
      simp only [y]
      linarith
    exact absurd (hreversed hlower) (not_le.mpr hlt)
  · intro hscale history declared candidate other
    dsimp only
    intro hlt
    by_contra hraw
    rw [not_le] at hraw
    -- the sigmoid is monotone, also where it is clipped
    refine absurd hlt (not_lt.mpr ?_)
    unfold score
    apply sigmoid_realFunctions_mono
    exact add_le_add_left (mul_le_mul_of_nonneg_right hraw.le hscale) _

/-- A validation split with both labels has examples with each. -/
theorem valuesOf_ne_nil {ranker : NRMSLikeRanker ℝ heads width}
    {validationRows : List (ValidationRow heads width)} {label : Bool}
    (h : ∃ row ∈ validationRows, row.clickLabel = label) :
    rawScoresOf ranker validationRows label ≠ [] := by
  obtain ⟨row, hrow, hlabel⟩ := h
  have hmem : (rawScore (ranker.prepareUserContext realFunctions
      ((sortedHistory row.history).filterMap HistoryEntry.embedding)
      row.declaredTopicEmbedding).vector row.embedding, row.clickLabel)
      ∈ calibrationData ranker validationRows := List.mem_map.mpr ⟨row, hrow, rfl⟩
  unfold rawScoresOf valuesOf
  exact List.ne_nil_of_mem (List.mem_map_of_mem (List.mem_filter.mpr ⟨hmem, by simpa using hlabel⟩))

/-- Two labels are two kinds of labels. -/
private theorem two_le_length_dedup_iff (labels : List Bool) :
    2 ≤ labels.dedup.length ↔ true ∈ labels ∧ false ∈ labels := by
  constructor
  · intro hlength
    by_contra hmissing
    -- all labels are one, so that at most one is left
    have hsub : ∃ label, labels.dedup ⊆ [label] := by
      by_cases htrue : true ∈ labels
      · refine ⟨true, fun label hlabel => ?_⟩
        cases label with
        | true => simp
        | false => exact absurd ⟨htrue, List.mem_dedup.mp hlabel⟩ hmissing
      · refine ⟨false, fun label hlabel => ?_⟩
        cases label with
        | true => exact absurd (List.mem_dedup.mp hlabel) htrue
        | false => simp
    obtain ⟨label, hsub⟩ := hsub
    have hle := ((List.nodup_dedup labels).subperm hsub).length_le
    simp at hle
    omega
  · rintro ⟨htrue, hfalse⟩
    have hsub : [true, false] ⊆ labels.dedup := by
      intro label _
      cases label with
      | true => exact List.mem_dedup.mpr htrue
      | false => exact List.mem_dedup.mpr hfalse
    exact (List.Nodup.subperm (by decide) hsub).length_le

theorem bothLabels_iff (ranker : NRMSLikeRanker ℝ heads width)
    (validationRows : List (ValidationRow heads width)) :
    ¬ ((calibrationData ranker validationRows).map Prod.snd).dedup.length < 2
      ↔ BothLabels validationRows := by
  have hlabels : (calibrationData ranker validationRows).map Prod.snd
      = validationRows.map ValidationRow.clickLabel := by
    unfold calibrationData
    rw [List.map_map]
    rfl
  rw [not_lt, hlabels, two_le_length_dedup_iff, List.mem_map, List.mem_map]
  rfl

/-- The scale that `finetune.py` chooses is positive. -/
theorem fitCalibration_neverReverses {minimize : (ℝ × ℝ → ℝ) → Optimum}
    {best tuned : NRMSLikeRanker ℝ heads width} {validation : List ValidationRequest}
    {vectors : Nat → Embedding ℝ heads width}
    (h : fitCalibration minimize best validation vectors = .ok tuned) : tuned.NeverReverses := by
  unfold fitCalibration at h
  dsimp only at h
  split_ifs at h
  rw [Except.ok.injEq] at h
  subst h
  exact (neverReverses_iff _).mpr (Real.exp_pos _).le

variable {fit : List Example → ℝ × ℝ} {ranker : NRMSLikeRanker ℝ heads width}
  {validationRows : List (ValidationRow heads width)}

/-- The scale that `train.py` chooses. -/
theorem calibrateRanker_neverReverses_iff
    (hfit : BothLabels validationRows →
      IsFit (calibrationData ranker validationRows) (fit (calibrationData ranker validationRows)).1
        (fit (calibrationData ranker validationRows)).2) :
    (calibrateRanker fit ranker validationRows).NeverReverses
      ↔ if BothLabels validationRows then
          mean (rawScoresOf ranker validationRows false)
            ≤ mean (rawScoresOf ranker validationRows true)
        else 0 ≤ ranker.calibrationScale := by
  -- the scale is the slope of the regression, if there is one
  rw [neverReverses_iff]
  unfold calibrateRanker
  dsimp only
  by_cases hboth : BothLabels validationRows
  · rw [if_pos hboth, if_neg ((bothLabels_iff ranker validationRows).mpr hboth)]
    exact Lib.slope_nonneg_iff (hfit hboth) (valuesOf_ne_nil hboth.1) (valuesOf_ne_nil hboth.2)
  · rw [if_neg hboth, if_pos (not_not.mp fun h => hboth ((bothLabels_iff _ _).mp h))]

/-- **When calibration never reverses the order.**  With a regression that minimises its regularised
    log-loss, neither calibration reverses the order of the candidates of a user exactly when the
    clicked validation rows have at least the mean raw score of the others, or, without rows of both
    kinds, the scale was not negative before. -/
theorem calibrations_neverReverse_iff
    (hfit : BothLabels validationRows →
      IsFit (calibrationData ranker validationRows) (fit (calibrationData ranker validationRows)).1
        (fit (calibrationData ranker validationRows)).2)
    (minimize : (ℝ × ℝ → ℝ) → Optimum) (best : NRMSLikeRanker ℝ heads width)
    (validation : List ValidationRequest) (vectors : Nat → Embedding ℝ heads width) :
    ((calibrateRanker fit ranker validationRows).NeverReverses
        ∧ ∀ tuned, fitCalibration minimize best validation vectors = .ok tuned →
          tuned.NeverReverses)
      ↔ if BothLabels validationRows then
          mean (rawScoresOf ranker validationRows false)
            ≤ mean (rawScoresOf ranker validationRows true)
        else 0 ≤ ranker.calibrationScale := by
  rw [← calibrateRanker_neverReverses_iff hfit]
  exact and_iff_left fun tuned h => fitCalibration_neverReverses h

end Sign

/-! ### Users and articles with one number -/

/-- A ranker of embeddings with one entry. -/
noncomputable def lineRanker : NRMSLikeRanker ℝ 1 1 where
  architecture := {
    historyLength := 0
    positionScale := 0
    semanticResidual := 0
    heads_pos := Nat.one_pos
    width_pos := Nat.one_pos
    positionScale_nonneg := le_refl 0
    semanticResidual_mem := zero_semanticResidual }
  queryProjection := 0
  keyProjection := 0
  valueProjection := 0
  calibrationScale := 1
  calibrationBias := 0
  popularEmbedding := none

/-- The article of a user who has declared a topic. -/
noncomputable def lineRow (e : Example) : ValidationRow 1 1 :=
  ⟨[], some fun _ => 1, fun _ => e.1, e.2⟩

theorem calibrationData_lineRow (data : List Example) :
    calibrationData lineRanker (data.map lineRow) = data := by
  unfold calibrationData
  rw [List.map_map]
  refine (List.map_congr_left fun e _ => ?_).trans (List.map_id data)
  show (∑ _ : Fin (1 * 1), (1 : ℝ) * e.1, e.2) = id e
  simp

/-- A slope that falls: `w = -2 / (1 + exp(-w))`. -/
theorem exists_falling_slope : ∃ w < 0, w + 2 * Real.sigmoid w = 0 := by
  have hcontinuous : ContinuousOn (fun w => w + 2 * Real.sigmoid w) (Set.Icc (-1) 0) := by
    have hsigmoid : Continuous Real.sigmoid := continuous_sigmoid
    fun_prop
  -- the equation changes its sign between `-1` and `0`
  have hlower : (-1 : ℝ) + 2 * Real.sigmoid (-1) ≤ 0 := by
    have h := Real.sigmoid_le (by norm_num : (-1 : ℝ) ≤ 0)
    rw [Real.sigmoid_zero] at h
    linarith
  have hupper : (0 : ℝ) ≤ 0 + 2 * Real.sigmoid 0 := by
    rw [Real.sigmoid_zero]
    norm_num
  obtain ⟨w, ⟨-, hw⟩, hroot⟩ :=
    intermediate_value_Icc (by norm_num : (-1 : ℝ) ≤ 0) hcontinuous ⟨hlower, hupper⟩
  refine ⟨w, lt_of_le_of_ne hw ?_, hroot⟩
  rintro rfl
  norm_num at hroot

/-- A ranker with the semantic residual alone. -/
theorem one_semanticResidual : (0 : ℝ) ≤ 1 ∧ (1 : ℝ) ≤ 1 := ⟨zero_le_one, le_rfl⟩

/-- A ranker for which a user is the mean of the articles that were read. -/
noncomputable def meanRanker : NRMSLikeRanker ℝ 1 1 :=
  { lineRanker with
    architecture := {
      historyLength := 1
      positionScale := 0
      semanticResidual := 1
      heads_pos := Nat.one_pos
      width_pos := Nat.one_pos
      positionScale_nonneg := le_refl 0
      semanticResidual_mem := one_semanticResidual } }

/-- A clicked article of raw score 1 and another one of -1: the regression finds a rising slope.  The
    other calibration has six candidates of a user who has read the article 0.  Of the three with the
    raw score 1 two are clicked, and one of the three with -1, so that the best scale is `log 2`. -/
theorem calibrations_neverReverse_rising : ∃ w > 0,
    ((calibrateRanker (fun _ => (w, 0)) lineRanker
          ([(1, true), (-1, false)].map lineRow)).NeverReverses
        ∧ ∀ tuned, fitCalibration (fun _ => ⟨true, Real.log (Real.log 2), 0⟩) meanRanker
            [⟨[0], [0, 0, 0, 1, 1, 1], [1, 1, 0, 0, 0, 1]⟩] (fun i _ => if i = 0 then 1 else -1)
          = .ok tuned → tuned.NeverReverses)
      ↔ if BothLabels ([(1, true), (-1, false)].map lineRow) then
          mean (rawScoresOf lineRanker ([(1, true), (-1, false)].map lineRow) false)
            ≤ mean (rawScoresOf lineRanker ([(1, true), (-1, false)].map lineRow) true)
        else 0 ≤ lineRanker.calibrationScale := by
  obtain ⟨w, hneg, hroot⟩ := exists_falling_slope
  refine ⟨-w, neg_pos.mpr hneg, calibrations_neverReverse_iff (fun _ => ?_) _ _ _ _⟩
  rw [calibrationData_lineRow]
  apply Lib.Stationary.isFit
  constructor
  · norm_num [Lib.residual, Lib.target, Real.sigmoid_neg]
  · norm_num [Lib.residual, Lib.target, Real.sigmoid_neg]
    linarith

/-- **Counterexample.**  The clicked article has the raw score `-1` and the other one `1`: the
    regression finds a falling slope. -/
theorem falling_slope_reverses :
    ¬ ∀ (heads width : Nat) (fit : List Example → ℝ × ℝ)
      (ranker best : NRMSLikeRanker ℝ heads width)
      (validationRows : List (ValidationRow heads width)) (minimize : (ℝ × ℝ → ℝ) → Optimum)
      (validation : List ValidationRequest) (vectors : Nat → Embedding ℝ heads width),
      (BothLabels validationRows → IsFit (calibrationData ranker validationRows)
        (fit (calibrationData ranker validationRows)).1
        (fit (calibrationData ranker validationRows)).2) →
      (calibrateRanker fit ranker validationRows).NeverReverses
        ∧ ∀ tuned, fitCalibration minimize best validation vectors = .ok tuned →
          tuned.NeverReverses := by
  intro hall
  obtain ⟨w, hneg, hroot⟩ := exists_falling_slope
  have hnever := (hall 1 1 (fun _ => (w, 0)) lineRanker lineRanker
    ([(-1, true), (1, false)].map lineRow) (fun _ => ⟨true, 0, 0⟩) [] (fun _ => 0) (fun _ => by
      rw [calibrationData_lineRow]
      apply Lib.Stationary.isFit
      constructor
      · norm_num [Lib.residual, Lib.target, Real.sigmoid_neg]
      · norm_num [Lib.residual, Lib.target, Real.sigmoid_neg]
        linarith)).1
  rw [neverReverses_iff] at hnever
  have hboth : BothLabels ([(-1, true), (1, false)].map lineRow) := by
    refine ⟨⟨lineRow (-1, true), by simp, rfl⟩, ⟨lineRow (1, false), by simp, rfl⟩⟩
  unfold calibrateRanker at hnever
  dsimp only at hnever
  rw [if_neg ((bothLabels_iff lineRanker _).mpr hboth)] at hnever
  exact absurd hnever (not_le.mpr hneg)

end Oecophylla.Ranker
