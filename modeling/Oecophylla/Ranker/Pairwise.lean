import Oecophylla.Ranker.Nrms

namespace Oecophylla.Ranker

open scoped BigOperators
open NRMSLikeRanker

/-!
# Pairwise training — `ai_pipeline/model.py`

One step of gradient descent on pairs of a clicked and another candidate, with a backward pass that
is written by hand.

* `forwardCache` — what `_forward_history` keeps for the backward pass;
* `backwardHead`, `backwardHistory` — `_backward_history`;
* `accumulate`, `trainPairwiseEpoch` — `train_pairwise_epoch`.
-/

/-- The projections of all heads. -/
abbrev Projection (F : Type) (heads width : Nat) := Fin heads → Fin (heads * width) → Fin width → F

/-- What is kept of a head. -/
structure HeadCache (F : Type) (width : Nat) where
  query : Nat → Fin width → F
  key : Nat → Fin width → F
  value : Nat → Fin width → F
  attention : Nat → Nat → F

/-- `cache`. -/
structure Cache (F : Type) (heads width : Nat) where
  positioned : Nat → Embedding F heads width
  heads : Fin heads → HeadCache F width
  length : Nat

/-- `PairwiseExample`, as far as training reads it. -/
structure PairwiseExample (F : Type) (heads width : Nat) where
  historyEmbeddings : List (Embedding F heads width)
  positiveEmbedding : Embedding F heads width
  negativeEmbedding : Embedding F heads width

/-- `grad_query`, `grad_key`, `grad_value` and `updated`. -/
structure EpochState (F : Type) (heads width : Nat) where
  gradQuery : Projection F heads width
  gradKey : Projection F heads width
  gradValue : Projection F heads width
  updated : Nat

section Training

variable {F : Type} [Field F] [LinearOrder F] {heads width : Nat} (el : Elementary F)
  (ranker : NRMSLikeRanker F heads width)

/-- `attention`: the softmax of a row of scores, after the maximum is subtracted. -/
def attentionWeights (length : Nat) (scores : Nat → F) (m : Nat) : F :=
  let expScores := fun m => el.exp (scores m - rowMax length scores)
  expScores m / ∑ n ∈ Finset.range length, expScores n

/-- The cache of `_forward_history(embeddings)`. -/
def forwardCache (embeddings : List (Embedding F heads width)) : Cache F heads width :=
  let length := embeddings.length
  let rows := positioned el ranker.architecture fun l => embeddings.getD l 0
  { positioned := rows
    heads := fun head =>
      let query := fun l => project (ranker.queryProjection head) (rows l)
      let key := fun l => project (ranker.keyProjection head) (rows l)
      let value := fun l => project (ranker.valueProjection head) (rows l)
      { query, key, value
        attention := fun l => attentionWeights el length (attentionScores el query key l) }
    length }

/-- The body of the loop of `_backward_history`: the gradients of the projections of a head. -/
def backwardHead (length : Nat) (positioned : Nat → Embedding F heads width)
    (head : HeadCache F width) (gradContext : Nat → Fin width → F) :
    (Fin (heads * width) → Fin width → F) × (Fin (heads * width) → Fin width → F)
      × (Fin (heads * width) → Fin width → F) :=
  let rows := Finset.range length
  let gradAttention := fun l m => ∑ k, gradContext l k * head.value m k
  let gradValueHead := fun m k => ∑ l ∈ rows, head.attention l m * gradContext l k
  let rowSum := fun l => ∑ m ∈ rows, head.attention l m * gradAttention l m
  let gradScores := fun l m => head.attention l m * (gradAttention l m - rowSum l)
  let scale := 1 / el.sqrt width
  let gradQueryHead := fun l k => (∑ m ∈ rows, gradScores l m * head.key m k) * scale
  let gradKeyHead := fun m k => (∑ l ∈ rows, gradScores l m * head.query l k) * scale
  (fun d k => ∑ l ∈ rows, positioned l d * gradQueryHead l k,
    fun d k => ∑ m ∈ rows, positioned m d * gradKeyHead m k,
    fun d k => ∑ m ∈ rows, positioned m d * gradValueHead m k)

/-- `_backward_history(cache, grad_user)`. -/
def backwardHistory (cache : Cache F heads width) (gradUser : Embedding F heads width) :
    Projection F heads width × Projection F heads width × Projection F heads width :=
  let gradConcatenated := fun (_ : Nat) d =>
    (1 - ranker.architecture.semanticResidual) * gradUser d / cache.length
  let gradients := fun head => backwardHead el cache.length cache.positioned (cache.heads head)
    fun l k => gradConcatenated l (finProdFinEquiv (head, k))
  (fun head => (gradients head).1, fun head => (gradients head).2.1,
    fun head => (gradients head).2.2)

/-- `with_updated_weights`. -/
def withUpdatedWeights (queryProjection keyProjection valueProjection : Projection F heads width) :
    NRMSLikeRanker F heads width :=
  { ranker with queryProjection, keyProjection, valueProjection }

/-- `score_gap`. -/
def scoreGap (userVector positive negative : Embedding F heads width) : F :=
  rawScore userVector positive - rawScore userVector negative

/-- The body of the loop of `train_pairwise_epoch`. -/
def accumulate (s : EpochState F heads width) (pair : PairwiseExample F heads width) :
    EpochState F heads width :=
  if pair.historyEmbeddings.isEmpty then s
  else
    let truncated := ranker.truncateHistory pair.historyEmbeddings
    let userVector := ranker.forwardHistory el truncated
    let cache := forwardCache el ranker truncated
    let gap := scoreGap userVector pair.positiveEmbedding pair.negativeEmbedding
    let gradientSignal := sigmoid el gap - 1
    let gradUser := fun d =>
      gradientSignal * (pair.positiveEmbedding d - pair.negativeEmbedding d)
    let gradients := backwardHistory el ranker cache gradUser
    { gradQuery := s.gradQuery + gradients.1
      gradKey := s.gradKey + gradients.2.1
      gradValue := s.gradValue + gradients.2.2
      updated := s.updated + 1 }

/-- `train_pairwise_epoch(ranker, examples, learning_rate=learning_rate)`. -/
def trainPairwiseEpoch (examples : List (PairwiseExample F heads width)) (learningRate : F) :
    NRMSLikeRanker F heads width :=
  let s := examples.foldl (accumulate el ranker) ⟨0, 0, 0, 0⟩
  if s.updated = 0 then ranker
  else
    let step := fun (projection gradient : Projection F heads width) head d k =>
      projection head d k - learningRate * (gradient head d k / s.updated)
    withUpdatedWeights ranker (step ranker.queryProjection s.gradQuery)
      (step ranker.keyProjection s.gradKey) (step ranker.valueProjection s.gradValue)

end Training

end Oecophylla.Ranker
