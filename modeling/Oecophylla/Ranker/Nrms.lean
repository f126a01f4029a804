import Oecophylla.Lib.Softmax
import Oecophylla.Lib.StableSort
import Mathlib.Algebra.Order.Field.Basic
import Mathlib.Logic.Equiv.Fin.Basic

namespace Oecophylla.Ranker

open scoped BigOperators
open Lib (stableSort compareBy)

/-!
# The NRMS ranker — `ai_pipeline/model.py`, `recommendation_api/app/model_ranker.py`

* `Elementary` — the functions of numpy, over a field `F` of exact numbers;
* `NRMSArchitecture`, `NRMSLikeRanker` — the model, its embeddings having `heads * width` entries;
* `forwardHistory`, `prepareUserContext`, `score` — the user and the score;
* `predictScores` — offline, one context for each record;
* `predictArtifactScores` — online, one context for the request.
-/

/-- The elementary functions, with what softmax needs of `exp`. -/
structure Elementary (F : Type) [Field F] where
  exp : F → F
  sqrt : F → F
  sin : F → F
  cos : F → F
  pow : F → F → F
  exp_add : ∀ x y, exp (x + y) = exp x * exp y
  exp_ne_zero : ∀ x, exp x ≠ 0

/-- An embedding. -/
abbrev Embedding (F : Type) (heads width : Nat) := Fin (heads * width) → F

/-- `NRMSArchitecture`, with the checks of `__post_init__`; the seed only matters for
    `initialize`. -/
structure NRMSArchitecture (F : Type) [Field F] [LinearOrder F] (heads width : Nat) where
  historyLength : Nat
  positionScale : F
  semanticResidual : F
  heads_pos : 0 < heads
  width_pos : 0 < width
  positionScale_nonneg : 0 ≤ positionScale
  semanticResidual_mem : 0 ≤ semanticResidual ∧ semanticResidual ≤ 1

/-- `NRMSLikeRanker`. -/
structure NRMSLikeRanker (F : Type) [Field F] [LinearOrder F] (heads width : Nat) where
  architecture : NRMSArchitecture F heads width
  queryProjection : Fin heads → Fin (heads * width) → Fin width → F
  keyProjection : Fin heads → Fin (heads * width) → Fin width → F
  valueProjection : Fin heads → Fin (heads * width) → Fin width → F
  calibrationScale : F
  calibrationBias : F
  popularEmbedding : Option (Embedding F heads width)

/-- Where a context comes from. -/
inductive Source where
  | history
  | declaredTopics
  | popularArticles
  deriving DecidableEq, Repr

/-- `UserContext`. -/
structure UserContext (F : Type) (heads width : Nat) where
  vector : Embedding F heads width
  source : Source
  historyLength : Nat
  fabricatedClicks : Nat

/-- An entry of a history; `A` is what its article has as an embedding. -/
structure HistoryEntry (A : Type) where
  ordinal : Int
  embedding : A

/-- A record: a candidate and the history of the user. -/
structure Record (F : Type) (heads width : Nat) (A : Type) where
  history : List (HistoryEntry A)
  embedding : A
  declaredTopicEmbedding : Option (Embedding F heads width)

/-- `ModelInputError`. -/
inductive ModelInputError where
  | missingEmbedding
  deriving DecidableEq, Repr

section Encoder

variable {F : Type} [Field F] [LinearOrder F] {heads width : Nat} (el : Elementary F)

/-- `_sinusoidal_positions(length, dimension)[position, d]`. -/
def sinusoidalPositions (dimension position d : Nat) : F :=
  let angle := position * (1 / el.pow 10000 ((2 * (d / 2) : Nat) / (dimension : F)))
  if d % 2 = 0 then el.sin angle else el.cos angle

/-- `positioned`. -/
def positioned (a : NRMSArchitecture F heads width) (matrix : Nat → Embedding F heads width)
    (l : Nat) : Embedding F heads width :=
  fun d => matrix l d + a.positionScale * sinusoidalPositions el (heads * width) l d

/-- A row times a projection. -/
def project (projection : Fin (heads * width) → Fin width → F) (row : Embedding F heads width) :
    Fin width → F :=
  fun k => ∑ d, row d * projection d k

/-- `query @ key.T / sqrt(head_dimension)`. -/
def attentionScores (query key : Nat → Fin width → F) (l m : Nat) : F :=
  (∑ k, query l k * key m k) / el.sqrt width

/-- The outputs of the heads, side by side. -/
def concatenate (context : Fin heads → Fin width → F) : Embedding F heads width :=
  fun d => context (finProdFinEquiv.symm d).1 (finProdFinEquiv.symm d).2

/-- `scores.max(axis=-1)` of a row. -/
def rowMax (length : Nat) (scores : Nat → F) : F :=
  (List.range length).foldl (fun top m => max top (scores m)) (scores 0)

/-- The context of one head: softmax after the maximum is subtracted. -/
def headContext (length : Nat) (query key value : Nat → Fin width → F) (l : Nat) : Fin width → F :=
  fun k =>
    let scores := attentionScores el query key l
    let expScores := fun m => el.exp (scores m - rowMax length scores)
    ∑ m ∈ Finset.range length, expScores m / (∑ n ∈ Finset.range length, expScores n) * value m k

/-- `matrix.mean(axis=0)`. -/
def meanRows (length : Nat) (matrix : Nat → Embedding F heads width) : Embedding F heads width :=
  fun d => (∑ l ∈ Finset.range length, matrix l d) / length

end Encoder

namespace NRMSLikeRanker

variable {F : Type} [Field F] [LinearOrder F] {heads width : Nat} (el : Elementary F)
  (ranker : NRMSLikeRanker F heads width)

/-- `_forward_history(embeddings)`. -/
def forwardHistory (embeddings : List (Embedding F heads width)) : Embedding F heads width :=
  let length := embeddings.length
  let matrix := fun l => embeddings.getD l 0
  let rows := positioned el ranker.architecture matrix
  let context := fun l => concatenate fun h => headContext el length
    (fun l => project (ranker.queryProjection h) (rows l))
    (fun l => project (ranker.keyProjection h) (rows l))
    (fun l => project (ranker.valueProjection h) (rows l)) l
  let residual := ranker.architecture.semanticResidual
  fun d => (1 - residual) * meanRows length context d + residual * meanRows length matrix d

/-- `encode_history(embeddings)`. -/
def encodeHistory (embeddings : List (Embedding F heads width)) (_ : embeddings ≠ []) :
    Embedding F heads width :=
  ranker.forwardHistory el embeddings

/-- `_truncate_history(embeddings)`. -/
def truncateHistory (embeddings : List (Embedding F heads width)) : List (Embedding F heads width) :=
  let cap := ranker.architecture.historyLength
  if 0 < cap ∧ cap < embeddings.length then embeddings.drop (embeddings.length - cap)
  else embeddings

theorem truncateHistory_ne_nil {embeddings : List (Embedding F heads width)} (h : embeddings ≠ []) :
    ranker.truncateHistory embeddings ≠ [] := by
  unfold truncateHistory
  dsimp only
  split
  · next hcap =>
    rw [← List.length_pos_iff, List.length_drop]
    omega
  · exact h

/-- `prepare_user_context`. -/
def prepareUserContext (historyEmbeddings : List (Embedding F heads width))
    (declaredTopicEmbedding : Option (Embedding F heads width)) : UserContext F heads width :=
  if h : historyEmbeddings ≠ [] then
    { vector := ranker.encodeHistory el (ranker.truncateHistory historyEmbeddings)
        (ranker.truncateHistory_ne_nil h)
      source := .history
      historyLength := historyEmbeddings.length
      fabricatedClicks := 0 }
  else
    match declaredTopicEmbedding with
    | some vector => ⟨vector, .declaredTopics, 0, 0⟩
    | none => ⟨ranker.popularEmbedding.getD 0, .popularArticles, 0, 0⟩

/-- `raw_score`. -/
def rawScore (userVector candidateEmbedding : Embedding F heads width) : F :=
  ∑ d, userVector d * candidateEmbedding d

/-- `_sigmoid(x)`. -/
def sigmoid (x : F) : F :=
  let clipped := min 60 (max (-60) x)
  1 / (1 + el.exp (-clipped))

/-- `score`. -/
def score (userVector candidateEmbedding : Embedding F heads width) : F :=
  sigmoid el (rawScore userVector candidateEmbedding * ranker.calibrationScale
    + ranker.calibrationBias)

/-- `sorted(history, key=lambda entry: entry["ordinal"])`. -/
def sortedHistory {A : Type} (history : List (HistoryEntry A)) : List (HistoryEntry A) :=
  stableSort (compareBy compare HistoryEntry.ordinal) history

/-- The context of a record of `predict_scores`: articles without an embedding are skipped. -/
def recordContext (record : Record F heads width (Option (Embedding F heads width))) :
    UserContext F heads width :=
  ranker.prepareUserContext el ((sortedHistory record.history).filterMap HistoryEntry.embedding)
    record.declaredTopicEmbedding

/-- `NRMSLikeRanker.predict_scores(records)`. -/
def predictScores (records : List (Record F heads width (Option (Embedding F heads width)))) :
    Except ModelInputError (List F) :=
  records.mapM fun record =>
    match record.embedding with
    | none => .error .missingEmbedding
    | some candidate => .ok (ranker.score el (ranker.recordContext el record).vector candidate)

/-- The context of a request, from its first record. -/
def requestContext (first : Record F heads width (Embedding F heads width)) :
    UserContext F heads width :=
  ranker.prepareUserContext el ((sortedHistory first.history).map HistoryEntry.embedding)
    first.declaredTopicEmbedding

/-- `NRMSArtifactPredictor.predict_scores(records)`; served articles have embeddings. -/
def predictArtifactScores (records : List (Record F heads width (Embedding F heads width))) :
    List F :=
  match records with
  | [] => []
  | first :: _ =>
    records.map fun record => ranker.score el (ranker.requestContext el first).vector record.embedding

end NRMSLikeRanker

end Oecophylla.Ranker
