import Oecophylla.Lib.Except
import Oecophylla.Ranker.Nrms
import Mathlib.Analysis.Real.Sqrt
import Mathlib.Analysis.SpecialFunctions.Pow.Real
import Mathlib.Analysis.SpecialFunctions.Trigonometric.Basic
import Oecophylla.Lib.Run

namespace Oecophylla.Ranker

open scoped BigOperators
open Lib (softmax)

/-!
# Training, offline scoring and serving — `ai_pipeline/finetune.py`

`TorchNRMS.forward` works on a padded batch of histories.  Masked positions are excluded from its
softmax.

* `historyBatch`, `forwardRow`, `forward` — the batch and the user vectors of its rows;
* `scoreRequests` — the raw scores of requests;
* `headAttention_eq` — a masked softmax is the softmax of the history, whatever the padding;
* `forwardRow_historyRow` — a padded row has the user vector of its history;
* `userVector_agree` — training, offline scoring and serving have the same user.
-/

/-- A row of a batch: `values[index]` and `mask[index]`. -/
structure BatchRow (F : Type) (heads width : Nat) where
  values : Nat → Embedding F heads width
  mask : Nat → Bool

/-- A padded batch. -/
structure Batch (F : Type) (heads width : Nat) where
  length : Nat
  rows : List (BatchRow F heads width)

section Forward

variable {F : Type} [Field F] [LinearOrder F] {heads width : Nat} (el : Elementary F)
  (ranker : NRMSLikeRanker F heads width)

/-- A history, padded with zeros. -/
def historyRow (history : List (Embedding F heads width)) : BatchRow F heads width where
  values l := if l < history.length then history.getD l 0 else 0
  mask l := decide (l < history.length)

/-- `history_batch(histories)`. -/
def historyBatch (histories : List (List (Embedding F heads width))) : Batch F heads width where
  length := max 1 ((histories.map List.length).foldr max 0)
  rows := histories.map historyRow

/-- `mask` as a number. -/
def weight (mask : Nat → Bool) (l : Nat) : F := if mask l then 1 else 0

/-- `attention @ value` of one head. -/
def headAttention (length : Nat) (mask : Nat → Bool) (query key value : Nat → Fin width → F)
    (l : Nat) : Fin width → F :=
  fun k =>
    let scores := attentionScores el query key l
    let attention := fun m =>
      if mask m then softmax el.exp ((Finset.range length).filter fun m => mask m) scores m else 0
    ∑ m ∈ Finset.range length, attention m * value m k

/-- `(matrix * mask).sum(dim=1) / mask.sum(dim=1).clamp(min=1)`. -/
def maskedMean (length : Nat) (mask : Nat → Bool) (matrix : Nat → Embedding F heads width) :
    Embedding F heads width :=
  fun d => (∑ l ∈ Finset.range length, matrix l d * weight mask l)
    / max 1 (∑ l ∈ Finset.range length, weight mask l)

/-- `TorchNRMS(ranker).forward`, of one row of the batch. -/
def forwardRow (length : Nat) (row : BatchRow F heads width) : Embedding F heads width :=
  let rows := positioned el ranker.architecture row.values
  let context := fun l => concatenate fun h => headAttention el length row.mask
    (fun l => project (ranker.queryProjection h) (rows l))
    (fun l => project (ranker.keyProjection h) (rows l))
    (fun l => project (ranker.valueProjection h) (rows l)) l
  let residual := ranker.architecture.semanticResidual
  let pooled := fun d => (1 - residual) * maskedMean length row.mask context d
    + residual * maskedMean length row.mask row.values d
  if ∃ l ∈ Finset.range length, row.mask l = true then pooled else ranker.popularEmbedding.getD 0

/-- `TorchNRMS(ranker).forward(history, mask)`. -/
def forward (batch : Batch F heads width) : List (Embedding F heads width) :=
  batch.rows.map (forwardRow el ranker batch.length)

/-- `items[-n:]`. -/
def lastOf {α : Type} (n : Nat) (items : List α) : List α :=
  if n = 0 then items else items.drop (items.length - n)

/-- `score_requests(ranker, requests, vectors)`, of requests with a history and candidates. -/
def scoreRequests (requests : List (List Nat × List Nat)) (vectors : Nat → Embedding F heads width) :
    List (List F) :=
  requests.map fun request =>
    let history := (lastOf ranker.architecture.historyLength request.1).map vectors
    let context := ranker.prepareUserContext el history none
    request.2.map fun candidate => ∑ d, vectors candidate d * context.vector d

end Forward

/-! ### Padding -/

section Padding

variable {F : Type} [Field F] {heads width : Nat} {el : Elementary F}

/-- A padded history has the rows of the history. -/
theorem values_historyRow (history : List (Embedding F heads width)) :
    (historyRow history).values = fun l => history.getD l 0 := by
  ext l : 1
  show (if l < history.length then history.getD l 0 else 0) = history.getD l 0
  split
  · rfl
  · next h =>
    rw [List.getD_eq_getElem?_getD, List.getElem?_eq_none (by omega), Option.getD_none]

/-- The mask selects the history. -/
theorem filter_mask (history : List (Embedding F heads width)) {length : Nat}
    (hle : history.length ≤ length) :
    ((Finset.range length).filter fun m => (historyRow history).mask m = true)
      = Finset.range history.length := by
  ext m
  simp only [historyRow, Finset.mem_filter, Finset.mem_range, decide_eq_true_iff]
  omega

variable [LinearOrder F]

/-- **The attention of a padded row** is the attention of its history. -/
theorem headAttention_eq (history : List (Embedding F heads width)) {length : Nat}
    (hle : history.length ≤ length) (query key value : Nat → Fin width → F) (l : Nat) :
    headAttention el length (historyRow history).mask query key value l
      = headContext el history.length query key value l := by
  ext k
  unfold headAttention headContext
  dsimp only
  rw [filter_mask history hle]
  have hmask : ∀ m, (if (historyRow history).mask m = true then
        softmax el.exp (Finset.range history.length) (attentionScores el query key l) m else 0)
          * value m k
      = if m < history.length then
          softmax el.exp (Finset.range history.length) (attentionScores el query key l) m * value m k
        else 0 := by
    intro m
    show (if decide (m < history.length) = true then _ else _) * _ = _
    simp only [decide_eq_true_iff, ite_mul, zero_mul]
  simp only [hmask]
  rw [Lib.sum_range_ite hle]
  refine Finset.sum_congr rfl fun m _ => ?_
  rw [← Lib.softmax_sub el.exp_add el.exp_ne_zero _ _
    (rowMax history.length (attentionScores el query key l))]
  rfl

variable [IsStrictOrderedRing F] {ranker : NRMSLikeRanker F heads width}

/-- **The mean of a padded row** is the mean of its history. -/
theorem maskedMean_eq {history : List (Embedding F heads width)} (hne : history ≠ []) {length : Nat}
    (hle : history.length ≤ length) (matrix : Nat → Embedding F heads width) :
    maskedMean length (historyRow history).mask matrix = meanRows history.length matrix := by
  have hweight : ∀ (f : Nat → F), (∑ l ∈ Finset.range length,
      f l * weight (historyRow history).mask l) = ∑ l ∈ Finset.range history.length, f l := by
    intro f
    rw [← Lib.sum_range_ite hle]
    refine Finset.sum_congr rfl fun l _ => ?_
    show f l * (if decide (l < history.length) = true then 1 else 0) = _
    simp only [decide_eq_true_iff, mul_ite, mul_one, mul_zero]
  have hcount : (∑ l ∈ Finset.range length, weight (historyRow history).mask l : F)
      = history.length := by
    have hones := hweight fun _ => 1
    simp only [one_mul] at hones
    rw [hones, Finset.sum_const, Finset.card_range, nsmul_eq_mul, mul_one]
  have hpos : (1 : F) ≤ history.length := by
    exact_mod_cast Nat.one_le_iff_ne_zero.mpr fun h => hne (List.length_eq_zero_iff.mp h)
  ext d
  unfold maskedMean meanRows
  rw [hweight, hcount, max_eq_right hpos]

/-- **The user vector of a padded row** is the user vector of its history. -/
theorem forwardRow_historyRow (history : List (Embedding F heads width)) {length : Nat}
    (hle : history.length ≤ length) :
    forwardRow el ranker length (historyRow history)
      = if history = [] then ranker.popularEmbedding.getD 0
        else ranker.forwardHistory el history := by
  have hany : (∃ l ∈ Finset.range length, (historyRow history).mask l = true) ↔ history ≠ [] := by
    simp only [historyRow, Finset.mem_range, decide_eq_true_iff]
    rw [← List.length_pos_iff]
    exact ⟨fun ⟨l, _, hl⟩ => by omega, fun hpos => ⟨0, by omega, hpos⟩⟩
  unfold forwardRow
  dsimp only
  by_cases hne : history = []
  · rw [if_pos hne, if_neg (by rw [hany]; exact not_not.mpr hne)]
  · rw [if_neg hne, if_pos (hany.mpr hne), maskedMean_eq hne hle, maskedMean_eq hne hle,
      values_historyRow]
    simp only [headAttention_eq history hle]
    rfl

end Padding

/-! ### One user -/

section Agreement

variable {F : Type} [Field F] [LinearOrder F] {heads width : Nat} (el : Elementary F)
  (ranker : NRMSLikeRanker F heads width)

/-- The vector of a context without declared topics. -/
theorem vector_prepareUserContext (history : List (Embedding F heads width)) :
    (ranker.prepareUserContext el history none).vector
      = if ranker.truncateHistory history = [] then ranker.popularEmbedding.getD 0
        else ranker.forwardHistory el (ranker.truncateHistory history) := by
  unfold NRMSLikeRanker.prepareUserContext
  by_cases hne : history = []
  · have htruncate : ranker.truncateHistory [] = [] := by simp [NRMSLikeRanker.truncateHistory]
    subst hne
    rw [dif_neg (by simp), if_pos htruncate]
  · rw [dif_pos hne, if_neg (ranker.truncateHistory_ne_nil hne)]
    rfl

/-- Truncating twice is truncating once. -/
theorem truncateHistory_idem (history : List (Embedding F heads width)) :
    ranker.truncateHistory (ranker.truncateHistory history) = ranker.truncateHistory history := by
  unfold NRMSLikeRanker.truncateHistory
  dsimp only
  split
  · next hcap =>
    rw [if_neg (by rw [List.length_drop]; omega)]
  · rfl

/-- A slice of the indices is a truncation of the embeddings. -/
theorem map_lastOf (vectors : Nat → Embedding F heads width) (history : List Nat) :
    (lastOf ranker.architecture.historyLength history).map vectors
      = ranker.truncateHistory (history.map vectors) := by
  unfold lastOf NRMSLikeRanker.truncateHistory
  dsimp only
  rw [List.length_map]
  by_cases hzero : ranker.architecture.historyLength = 0
  · rw [if_pos hzero, if_neg (by omega)]
  · by_cases hlong : ranker.architecture.historyLength < history.length
    · rw [if_neg hzero, if_pos ⟨by omega, hlong⟩, List.map_drop]
    · have hdrop : history.length - ranker.architecture.historyLength = 0 := by omega
      rw [if_neg hzero, if_neg (by omega), hdrop, List.drop_zero]

omit [Field F] [LinearOrder F] in
theorem length_le_foldr_max {lists : List (List (Embedding F heads width))}
    {list : List (Embedding F heads width)} (h : list ∈ lists) :
    list.length ≤ (lists.map List.length).foldr max 0 := by
  induction lists with
  | nil => cases h
  | cons first lists ih =>
    rw [List.map_cons, List.foldr_cons]
    rcases List.mem_cons.mp h with rfl | hmem
    · exact le_max_left _ _
    · exact (ih hmem).trans (le_max_right _ _)

/-- A request: the history that its candidates share, every entry of which has an embedding, and
    the embeddings of the candidates. -/
structure Request (F : Type) (heads width : Nat) where
  history : List (HistoryEntry (Embedding F heads width))
  candidates : List (Embedding F heads width)

/-- The history in its order. -/
def Request.embeddings (request : Request F heads width) : List (Embedding F heads width) :=
  (NRMSLikeRanker.sortedHistory request.history).map HistoryEntry.embedding

/-- The records of the serving path. -/
def Request.served (request : Request F heads width) :
    List (Record F heads width (Embedding F heads width)) :=
  request.candidates.map fun candidate => ⟨request.history, candidate, none⟩

/-- An entry of a dataset row. -/
def HistoryEntry.offline {A : Type} (entry : HistoryEntry A) : HistoryEntry (Option A) :=
  ⟨entry.ordinal, some entry.embedding⟩

/-- The records of the offline path. -/
def Request.offline (request : Request F heads width) :
    List (Record F heads width (Option (Embedding F heads width))) :=
  request.candidates.map fun candidate =>
    ⟨request.history.map HistoryEntry.offline, some candidate, none⟩

/-- The offline path reads the same history. -/
theorem recordContext_offline {request : Request F heads width}
    {record : Record F heads width (Option (Embedding F heads width))}
    (h : record ∈ request.offline) :
    ranker.recordContext el record = ranker.prepareUserContext el request.embeddings none := by
  obtain ⟨candidate, -, rfl⟩ := List.mem_map.mp h
  have hembeddings : (NRMSLikeRanker.sortedHistory (request.history.map HistoryEntry.offline)).filterMap
      HistoryEntry.embedding = request.embeddings := by
    unfold NRMSLikeRanker.sortedHistory Request.embeddings
    rw [Lib.stableSort_map, List.filterMap_map, ← List.filterMap_eq_map]
    rfl
  unfold NRMSLikeRanker.recordContext
  dsimp only
  rw [hembeddings]

/-- The serving path reads the same history. -/
theorem requestContext_served {request : Request F heads width}
    {record : Record F heads width (Embedding F heads width)} (h : record ∈ request.served) :
    ranker.requestContext el record = ranker.prepareUserContext el request.embeddings none := by
  obtain ⟨candidate, -, rfl⟩ := List.mem_map.mp h
  rfl

/-- The raw scores of a request are those of its context. -/
theorem scoreRequests_eq (vectors : Nat → Embedding F heads width) (history candidates : List Nat) :
    scoreRequests el ranker [(history, candidates)] vectors
      = [candidates.map fun candidate => NRMSLikeRanker.rawScore
          (ranker.prepareUserContext el (history.map vectors) none).vector (vectors candidate)] := by
  have hvector : (ranker.prepareUserContext el
        (ranker.truncateHistory (history.map vectors)) none).vector
      = (ranker.prepareUserContext el (history.map vectors) none).vector := by
    rw [vector_prepareUserContext, vector_prepareUserContext, truncateHistory_idem]
  unfold scoreRequests NRMSLikeRanker.rawScore
  rw [List.map_cons, List.map_nil, map_lastOf]
  dsimp only
  rw [hvector]
  refine congrArg (fun scores => [scores]) (List.map_congr_left fun candidate _ => ?_)
  exact Finset.sum_congr rfl fun d _ => mul_comm _ _

/-- **One user for training, offline scoring and serving.**  In any batch, the row of a request has
    the vector of the context that both `predict_scores` derive for it; so their scores coincide,
    and are those of the vector, and so are the raw scores of `score_requests`. -/
theorem userVector_agree [IsStrictOrderedRing F] (request : Request F heads width)
    (before after : List (List (Embedding F heads width))) :
    let user := (ranker.prepareUserContext el request.embeddings none).vector
    (forward el ranker (historyBatch
        (before ++ ranker.truncateHistory request.embeddings :: after)))[before.length]? = some user
      ∧ (∀ record ∈ request.offline, (ranker.recordContext el record).vector = user)
      ∧ (∀ first ∈ request.served, (ranker.requestContext el first).vector = user)
      ∧ ranker.predictScores el request.offline
          = .ok (request.candidates.map (ranker.score el user))
      ∧ ranker.predictArtifactScores el request.served
          = request.candidates.map (ranker.score el user)
      ∧ ∀ vectors history candidates, history.map vectors = request.embeddings →
          scoreRequests el ranker [(history, candidates)] vectors
            = [candidates.map fun candidate => NRMSLikeRanker.rawScore user (vectors candidate)] := by
  intro user
  refine ⟨?_, fun record h => by rw [recordContext_offline el ranker h],
    fun first h => by rw [requestContext_served el ranker h], ?_, ?_, ?_⟩
  · have hmem : ranker.truncateHistory request.embeddings
        ∈ before ++ ranker.truncateHistory request.embeddings :: after :=
      List.mem_append_right before List.mem_cons_self
    have hle := (length_le_foldr_max hmem).trans (le_max_right 1 _)
    unfold forward historyBatch
    rw [List.getElem?_map, List.getElem?_map, List.getElem?_append_right le_rfl, Nat.sub_self]
    show some (forwardRow el ranker _ (historyRow (ranker.truncateHistory request.embeddings))) = _
    rw [forwardRow_historyRow _ hle, ← vector_prepareUserContext]
  · unfold NRMSLikeRanker.predictScores
    rw [Lib.mapM_eq_ok_iff]
    unfold Request.offline
    rw [List.map_map, List.map_map]
    refine List.map_congr_left fun candidate hcandidate => ?_
    have hrecord := recordContext_offline el ranker (List.mem_map_of_mem hcandidate
      (f := fun candidate : Embedding F heads width => (⟨request.history.map HistoryEntry.offline,
        some candidate, none⟩ : Record F heads width (Option (Embedding F heads width)))))
    show Except.ok (ranker.score el (ranker.recordContext el _).vector candidate) = _
    rw [hrecord]
    rfl
  · cases hcandidates : request.candidates with
    | nil =>
      unfold Request.served
      rw [hcandidates]
      rfl
    | cons first rest =>
      unfold Request.served NRMSLikeRanker.predictArtifactScores
      rw [hcandidates, List.map_cons]
      dsimp only
      rw [List.map_cons, List.map_cons, List.map_map]
      rfl
  · intro vectors history candidates hhistory
    rw [scoreRequests_eq, hhistory]

end Agreement

/-! ### Over the real numbers -/

/-- The functions of the real numbers. -/
noncomputable def realFunctions : Elementary ℝ where
  exp := Real.exp
  sqrt := Real.sqrt
  sin := Real.sin
  cos := Real.cos
  pow := fun x y => x ^ y
  exp_add := Real.exp_add
  exp_ne_zero := Real.exp_ne_zero

attribute [local instance] Lib.atLeastTwo_two

/-- A ranker without a semantic residual. -/
theorem zero_semanticResidual : (0 : ℝ) ≤ 0 ∧ (0 : ℝ) ≤ 1 := ⟨le_rfl, zero_le_one⟩

/-- A ranker that reads two clicks. -/
private noncomputable def twoClicks : NRMSLikeRanker ℝ 2 1 where
  architecture := {
    historyLength := 2
    positionScale := 1
    semanticResidual := 1 / 2
    heads_pos := Nat.two_pos
    width_pos := Nat.one_pos
    positionScale_nonneg := by norm_num
    semanticResidual_mem := by norm_num }
  queryProjection _ _ _ := 1
  keyProjection _ _ _ := 1
  valueProjection _ _ _ := 1
  calibrationScale := 1
  calibrationBias := 0
  popularEmbedding := none

/-- A user with three clicks. -/
private noncomputable def threeClicks : Request ℝ 2 1 where
  history := [⟨2, fun _ => 2⟩, ⟨0, fun _ => 0⟩, ⟨1, fun _ => 1⟩]
  candidates := [fun _ => 1]

/-- The user has one vector, alone and between a longer history and an empty one. -/
theorem userVector_agree_batches :
    (forward realFunctions twoClicks (historyBatch
        [twoClicks.truncateHistory threeClicks.embeddings]))[0]?
      = (forward realFunctions twoClicks (historyBatch
          [[fun _ => 1, fun _ => 2, fun _ => 3], twoClicks.truncateHistory threeClicks.embeddings,
            []]))[1]? :=
  (userVector_agree realFunctions twoClicks threeClicks [] []).1.trans
    (userVector_agree realFunctions twoClicks threeClicks [[fun _ => 1, fun _ => 2, fun _ => 3]]
      [[]]).1.symm

end Oecophylla.Ranker
