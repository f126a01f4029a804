import Mathlib.Data.Finset.Card
import Oecophylla.Dataset.Schemas
import Oecophylla.Lib.OrderedDict

namespace Oecophylla.Evaluation

open Oecophylla.Dataset (parseDatetime)
open Oecophylla.Lib (OrderedDict stableSort)
open Oecophylla.Python (Value)

/-!
# The comparison of rankers on the test holdout — `ai_pipeline/evaluate.py`

* `Numerics` — the arithmetic of doubles, NumPy, scikit-learn and the random generator;
* `requestMetrics`, `aggregateModelMetrics` — ranking metrics and product guardrails;
* `pairedRankingComparison` — paired differences with their bootstrap interval;
* `segmentBucketKeys`, `segmentReport` — the metrics of the segments of the requests;
* `compareNrmsHoldout` — the report with its promotion verdict;
* `compareNrmsHoldout_eq_ok` — what a report is made of.

A double is an `F` and an embedding an `E`.  Nothing is assumed of their operations, so that NaN
and the infinities are covered.
-/

/-- What the evaluation takes from the language and its libraries. -/
structure Numerics (F E : Type) where
  /-- The double nearest to a rational: a literal, or a quotient of integers. -/
  ofRat : ℚ → F
  neg : F → F
  add : F → F → F
  sub : F → F → F
  div : F → F → F
  /-- `x < y`. -/
  lt : F → F → Bool
  /-- `x == y`. -/
  eq : F → F → Bool
  /-- `z == x` for an integer `z`. -/
  eqInt : Int → F → Bool
  /-- `math.isfinite(x)`. -/
  isfinite : F → Bool
  /-- `math.log2(x)`. -/
  log2 : F → F
  /-- `sum(values)`. -/
  sum : List F → F
  /-- `statistics.fmean(values)`. -/
  fmean : List F → F
  /-- `round(x, 6)`. -/
  round6 : F → F
  /-- `_cosine_similarity(left, right)`. -/
  cosineSimilarity : E → E → F
  /-- `_mean_pool(vectors)` of at least one vector. -/
  meanPool : List E → E
  /-- `LogisticRegression().fit(train_features, train_labels)` and then
      `predict_proba(test_features)[:, 1]`. -/
  logistic : (train : List (F × Int)) → (test : List F) → List F
  /-- The index that the `draw`-th `choice` takes from `size + 1` values after seeding. -/
  choice : (seed size draw : Nat) → Fin (size + 1)

/-- What the comparison raises. -/
inductive Raised where
  | valueError (text : String)
  | keyError (name : String)
  | indexError
  /-- A timestamp is not readable. -/
  | timestamp (raised : Dataset.Raised)
  /-- The artifact does not score the rows. -/
  | artifact (text : String)

/-! ### Rows -/

/-- `row["article"]`; a missing field is `None`. -/
structure Article (E : Type) where
  embedding : Option E
  publishedAt : Value
  language : Option String

/-- An entry of `row["history"]`. -/
structure HistoryEntry (E : Type) where
  article : Option (Article E)

/-- A row of the dataset: what the comparison reads of it.  `feed_source` and `source_format` may
    be missing or `None`, which makes a difference. -/
structure Row (E : Type) where
  split : String
  requestGroup : String
  sampleId : String
  candidateGroup : String
  position : Int
  clickLabel : Int
  utilityLabelName : Option String
  feedSource : Option (Option String)
  sourceFormat : Option (Option String)
  servedAt : Value
  language : Option String
  article : Option (Article E)
  history : List (HistoryEntry E)
  declaredTopicEmbedding : Option E

/-- `if bad: raise ValueError(text)`. -/
def raiseIf (bad : Bool) (text : String) : Except Raised Unit :=
  if bad then .error (.valueError text) else .ok ()

/-- `str(value)` of a text or `None`. -/
def strOf : Option String → String
  | none => "None"
  | some s => s

/-- `_validate_v2_segment_contract`. -/
def validateV2SegmentContract {E : Type} (rows : List (Row E)) : Except Raised Unit :=
  raiseIf (rows.any (·.feedSource.isNone))
    "dataset rows are missing required segment field feed_source"

/-! ### Segments of the requests -/

/-- `NRMS_SEGMENT_NAMES`. -/
inductive Segment where
  | userTenure
  | articleTenure
  | historyLength
  | feedSource
  | language
  deriving DecidableEq, Repr

def Segment.name : Segment → String
  | .userTenure => "user_tenure"
  | .articleTenure => "article_tenure"
  | .historyLength => "history_length"
  | .feedSource => "feed_source"
  | .language => "language"

def nrmsSegments : List Segment :=
  [.userTenure, .articleTenure, .historyLength, .feedSource, .language]

section Buckets

variable {E : Type}

/-- `_bucket_user_tenure`. -/
def bucketUserTenure (row : Row E) : String := if row.history.isEmpty then "new" else "existing"

/-- `article.get("published_at")`. -/
def publishedAt (row : Row E) : Value :=
  match row.article with
  | none => .none
  | some article => article.publishedAt

/-- `value is None`. -/
def isNone : Value → Bool
  | .none => true
  | _ => false

/-- `_bucket_article_tenure`, with its threshold of 24 hours. -/
def bucketArticleTenure (row : Row E) : Except Raised String :=
  if isNone (publishedAt row) || isNone row.servedAt then .ok "unknown"
  else do
    let served ← (parseDatetime row.servedAt).mapError .timestamp
    let published ← (parseDatetime (publishedAt row)).mapError .timestamp
    return if served.micros - published.micros ≤ 24 * 3600000000 then "new" else "established"

/-- `row.get("language") or article.get("language")`. -/
def languageOf (row : Row E) : Option String :=
  match row.language with
  | some s => if s = "" then row.article.bind (·.language) else some s
  | none => row.article.bind (·.language)

/-- `_bucket_language`. -/
def bucketLanguage (row : Row E) : String :=
  match languageOf row with
  | some s => if s = "" then "unknown" else s
  | none => "unknown"

/-- `_bucket_history_length`. -/
def bucketHistoryLength (row : Row E) : String :=
  if row.history.length = 0 then "0" else if row.history.length ≤ 2 then "1-2" else "3+"

/-- `_representative_positive`, for a request of at least one row. -/
def representativePositive (first : Row E) (rest : List (Row E)) : Row E :=
  ((first :: rest).find? fun row => row.clickLabel = 1).getD first

/-- `_segment_bucket_keys`. -/
def segmentBucketKeys : List (Row E) → Except Raised (Segment → String)
  | [] => .error .indexError
  | first :: rest => do
    let articleTenure ← bucketArticleTenure (representativePositive first rest)
    return fun
      | .userTenure => bucketUserTenure first
      | .articleTenure => articleTenure
      | .historyLength => bucketHistoryLength first
      | .feedSource => strOf (first.feedSource.getD none)
      | .language => bucketLanguage first

end Buckets

/-! ### Ranking metrics -/

/-- The ranking metrics, in the order of the paired comparison. -/
inductive Metric where
  | impressionAuc
  | mrr
  | ndcgAt5
  | ndcgAt10
  deriving DecidableEq, Repr

def Metric.name : Metric → String
  | .impressionAuc => "impression_auc"
  | .mrr => "mrr"
  | .ndcgAt5 => "ndcg_at_5"
  | .ndcgAt10 => "ndcg_at_10"

def metrics : List Metric := [.impressionAuc, .mrr, .ndcgAt5, .ndcgAt10]

/-- What `_request_metrics` returns. -/
structure RequestMetrics (F : Type) where
  mrr : F
  ndcgAt5 : F
  ndcgAt10 : F
  impressionAuc : Option F

def RequestMetrics.get {F : Type} (m : RequestMetrics F) : Metric → Option F
  | .impressionAuc => m.impressionAuc
  | .mrr => some m.mrr
  | .ndcgAt5 => some m.ndcgAt5
  | .ndcgAt10 => some m.ndcgAt10

/-- What `_aggregate_model_metrics` returns. -/
structure ModelMetrics (F : Type) where
  mrr : F
  ndcgAt5 : F
  ndcgAt10 : F
  impressionAuc : Option F
  impressionAucEligibleRequests : Nat
  requests : Nat
  coverageAtK : F
  embeddingDiversityAtK : F
  strongNegativeRateAtK : F

def ModelMetrics.get {F : Type} (m : ModelMetrics F) : Metric → Option F
  | .impressionAuc => m.impressionAuc
  | .mrr => some m.mrr
  | .ndcgAt5 => some m.ndcgAt5
  | .ndcgAt10 => some m.ndcgAt10

/-- The paired difference of a metric. -/
structure DeltaInterval (F : Type) where
  delta : F
  ci95 : F × F
  requests : Nat

/-- What `_paired_ranking_comparison` returns. -/
abbrev Comparison (F : Type) := OrderedDict Metric (DeltaInterval F)

/-- The metrics of one bucket of a segment. -/
structure SegmentMetrics (F : Type) where
  metrics : ModelMetrics F
  comparisons : OrderedDict String (Comparison F)

section Metrics

variable {F E : Type} (n : Numerics F E)

/-- `<` on doubles, for sorting. -/
def compareDouble (a b : F) : Ordering := if n.lt a b then .lt else if n.lt b a then .gt else .eq

/-- `<` on pairs of a double and an integer. -/
def pairLt (a b : F × Int) : Bool := if n.eq a.1 b.1 then decide (a.2 < b.2) else n.lt a.1 b.1

/-- `<` on pairs of a double and an integer, for sorting. -/
def comparePair (a b : F × Int) : Ordering :=
  if pairLt n a b then .lt else if pairLt n b a then .gt else .eq

/-- `scores_by_id[str(row["sample_id"])]`.  The rows that are looked up have all been scored. -/
def scoreOf (scores : OrderedDict String F) (row : Row E) : F :=
  (scores.get row.sampleId).getD (n.ofRat 0)

/-- The rows of a request by falling score, then by their logged position. -/
def rankedRows (rows : List (Row E)) (scores : OrderedDict String F) : List (Row E) :=
  stableSort (Lib.compareBy (comparePair n) fun row => (n.neg (scoreOf n scores row), row.position))
    rows

/-- `1.0 / math.log2(index + 2)`. -/
def discount (index : Nat) : F := n.div (n.ofRat 1) (n.log2 (n.ofRat (index + 2)))

/-- `_ndcg_binary`. -/
def ndcgBinary (rankedLabels : List Int) (k : Nat) : F :=
  if rankedLabels.all (· == 0) then n.ofRat 0
  else
    let dcg := n.sum ((rankedLabels.take k).zipIdx.filterMap fun (label, index) =>
      if label = 0 then none else some (discount n index))
    let idealHits := min (k : Int) rankedLabels.sum
    let ideal := n.sum ((List.range idealHits.toNat).map (discount n))
    if n.eq ideal (n.ofRat 0) then n.ofRat 0 else n.div dcg ideal

/-- `_mrr_binary`. -/
def mrrBinary (rankedLabels : List Int) : F :=
  match rankedLabels.findIdx? (· != 0) with
  | some index => n.ofRat (1 / (index + 1))
  | none => n.ofRat 0

/-- `_pairwise_auc`. -/
def pairwiseAuc (pairs : List (F × Int)) : Option F :=
  let positives := (pairs.filter (·.2 != 0)).map (·.1)
  let negatives := (pairs.filter (·.2 == 0)).map (·.1)
  if positives.isEmpty || negatives.isEmpty then none
  else
    -- halves and ones add up without rounding
    let credit : ℚ := (positives.flatMap fun positive => negatives.map fun negative =>
      if n.lt negative positive then (1 : ℚ) else if n.eq positive negative then 1 / 2 else 0).sum
    some (n.ofRat (credit / (positives.length * negatives.length)))

/-- `_request_metrics`. -/
def requestMetrics (rows : List (Row E)) (scores : OrderedDict String F) : RequestMetrics F :=
  let rankedLabels := (rankedRows n rows scores).map (·.clickLabel)
  let pairs := rows.map fun row => (scoreOf n scores row, row.clickLabel)
  { mrr := mrrBinary n rankedLabels
    ndcgAt5 := ndcgBinary n rankedLabels 5
    ndcgAt10 := ndcgBinary n rankedLabels 10
    impressionAuc := pairwiseAuc n pairs }

/-- `_mean`, and `round(fmean(values), 6) if values else 0.0`. -/
def mean (values : List F) : F :=
  if values.isEmpty then n.ofRat 0 else n.round6 (n.fmean values)

/-- `resamples`. -/
def resamples : Nat := 1000

/-- `_paired_bootstrap_delta_ci95`, for at least one difference. -/
def pairedBootstrapDeltaCi95 (first : F) (rest : List F) (seed : Nat) : F × F :=
  match rest with
  | [] => (n.round6 first, n.round6 first)
  | _ =>
    let size := rest.length + 1
    let means := stableSort (compareDouble n) <| (List.range resamples).map fun resample =>
      n.fmean <| (List.range size).map fun i =>
        (first :: rest).get (n.choice seed rest.length (resample * size + i))
    -- `round(0.025 * 999)` and `round(0.975 * 999)`
    let lower := means.getD 25 first
    let upper := means.getD 974 first
    (n.round6 lower, n.round6 upper)

/-- The differences of a metric over the requests that have it. -/
def metricDeltas (requests : List (List (Row E))) (model baseline : OrderedDict String F)
    (metric : Metric) : List F :=
  requests.filterMap fun rows =>
    match (requestMetrics n rows model).get metric, (requestMetrics n rows baseline).get metric with
    | some a, some b => some (n.sub a b)
    | _, _ => none

/-- `_paired_ranking_comparison`. -/
def pairedRankingComparison (rowsByRequest : OrderedDict String (List (Row E)))
    (model baseline : OrderedDict String F) : Comparison F :=
  let requests := (stableSort (Lib.compareBy compare Prod.fst) rowsByRequest).map Prod.snd
  metrics.zipIdx.filterMap fun (metric, index) =>
    match metricDeltas n requests model baseline metric with
    | [] => none
    | first :: rest => some (metric,
        { delta := mean n (first :: rest)
          ci95 := pairedBootstrapDeltaCi95 n first rest index
          requests := rest.length + 1 })

/-- `1.0 - _cosine_similarity(…)` of every two vectors. -/
def pairDistances : List E → List F
  | [] => []
  | left :: rest =>
    rest.map (fun right => n.sub (n.ofRat 1) (n.cosineSimilarity left right)) ++ pairDistances rest

/-- `_embedding_diversity`. -/
def embeddingDiversity (rows : List (Row E)) : F :=
  let vectors := rows.filterMap fun row => row.article.bind (·.embedding)
  if vectors.length < 2 then n.ofRat 0 else n.fmean (pairDistances n vectors)

/-- The part of the candidates that are strong negatives. -/
def strongNegativeRate (top : List (Row E)) : F :=
  if top.isEmpty then n.ofRat 0
  else n.ofRat (top.countP (·.utilityLabelName == some "strong_negative") / top.length)

/-- `_aggregate_model_metrics`. -/
def aggregateModelMetrics (rowsByRequest : OrderedDict String (List (Row E)))
    (scores : OrderedDict String F) (k : Nat) : ModelMetrics F :=
  let requests := rowsByRequest.map Prod.snd
  let perRequest := requests.map fun rows => requestMetrics n rows scores
  let aucValues := perRequest.filterMap (·.impressionAuc)
  let catalog := (requests.flatten.map (·.candidateGroup)).toFinset
  let tops := requests.map fun rows => (rankedRows n rows scores).take k
  let selectedCandidates := (tops.flatten.map (·.candidateGroup)).toFinset
  { mrr := mean n (perRequest.map (·.mrr))
    ndcgAt5 := mean n (perRequest.map (·.ndcgAt5))
    ndcgAt10 := mean n (perRequest.map (·.ndcgAt10))
    impressionAuc := if aucValues.isEmpty then none else some (n.round6 (n.fmean aucValues))
    impressionAucEligibleRequests := aucValues.length
    requests := perRequest.length
    coverageAtK :=
      if catalog.card = 0 then n.ofRat 0
      else n.round6 (n.ofRat (selectedCandidates.card / catalog.card))
    embeddingDiversityAtK := mean n (tops.map (embeddingDiversity n))
    strongNegativeRateAtK := mean n (tops.map (strongNegativeRate n)) }

/-! ### Scores of the baselines -/

/-- `_naive_user_vector`. -/
def naiveUserVector (row : Row E) : Option E :=
  match row.history.filterMap fun entry => entry.article.bind (·.embedding) with
  | [] => row.declaredTopicEmbedding
  | vectors => some (n.meanPool vectors)

/-- `_logistic_baseline_feature`. -/
def logisticBaselineFeature (row : Row E) : F :=
  match naiveUserVector n row, row.article.bind (·.embedding) with
  | some userVector, some candidate => n.cosineSimilarity userVector candidate
  | _, _ => n.ofRat 0

/-- A score for each row, by its id. -/
def scoreRows (rows : List (Row E)) (scores : List F) : OrderedDict String F :=
  OrderedDict.update [] ((rows.map (·.sampleId)).zip scores)

/-- `_logistic_baseline_scores`. -/
def logisticBaselineScores (trainRows testRows : List (Row E)) : OrderedDict String F :=
  let trainLabels := trainRows.map (·.clickLabel)
  if trainLabels.toFinset.card < 2 then scoreRows testRows (testRows.map fun _ => n.ofRat (1 / 2))
  else scoreRows testRows (n.logistic
    (trainRows.map fun row => (logisticBaselineFeature n row, row.clickLabel))
    (testRows.map (logisticBaselineFeature n)))

/-- `max(values)` of at least one value. -/
def maxScore (first : F) (rest : List F) : F :=
  rest.foldl (fun best x => if n.lt best x then x else best) first

/-- `_post_policy_scores`, for a request of at least one row. -/
def postPolicyScores (request : List (Row E)) (pure heuristic : OrderedDict String F) :
    List (String × F) :=
  let requestPure := request.map fun row => (row.sampleId, scoreOf n pure row)
  let requestHeuristic := request.map fun row => (row.sampleId, scoreOf n heuristic row)
  match OrderedDict.update [] requestPure with
  | [] => []
  | first :: rest =>
    if n.lt (maxScore n first.2 (rest.map Prod.snd)) (n.ofRat (1 / 2)) then requestHeuristic
    else requestPure

/-! ### The report -/

/-- A request with its rows and the bucket it has in each segment. -/
abbrev KeyedRequest (E : Type) := (String × List (Row E)) × (Segment → String)

/-- The metrics of the requests of a bucket. -/
def bucketMetrics (scores : OrderedDict String F) (baselines : List (String × OrderedDict String F))
    (requests : List (KeyedRequest E)) : SegmentMetrics F :=
  let selected := requests.map Prod.fst
  { metrics := aggregateModelMetrics n selected scores 5
    comparisons := baselines.map fun (label, baseline) =>
      (label, pairedRankingComparison n selected scores baseline) }

/-- The buckets of a segment. -/
def segmentBuckets (scores : OrderedDict String F) (baselines : List (String × OrderedDict String F))
    (keyed : List (KeyedRequest E)) (segment : Segment) : OrderedDict String (SegmentMetrics F) :=
  (OrderedDict.groupBy (fun request => request.2 segment) keyed).map
    (Prod.map id (bucketMetrics n scores baselines))

/-- `_segment_report`. -/
def segmentReport (rowsByRequest : OrderedDict String (List (Row E))) (scores : OrderedDict String F)
    (baselines : List (String × OrderedDict String F)) :
    Except Raised (OrderedDict Segment (OrderedDict String (SegmentMetrics F))) := do
  let keyed ← rowsByRequest.mapM fun request => do return (request, ← segmentBucketKeys request.2)
  return nrmsSegments.map fun segment => (segment, segmentBuckets n scores baselines keyed segment)

end Metrics

/-! ### Requests that name their segments -/

section Names

variable {E : Type}

/-- A request says when its article was published and served, and in which language and feed: none
    of its buckets is `unknown`. -/
structure NamesSegments (first : Row E) (rest : List (Row E)) : Prop where
  published : isNone (publishedAt (representativePositive first rest)) = false
  served : isNone (representativePositive first rest).servedAt = false
  language : ∃ s, languageOf first = some s ∧ s ≠ "" ∧ s ≠ "unknown"
  feedSource : first.feedSource ≠ some (some "unknown")

theorem bucketArticleTenure_eq_ok {row : Row E} {bucket : String}
    (h : bucketArticleTenure row = .ok bucket) :
    bucket = "unknown" ↔ (isNone (publishedAt row) || isNone row.servedAt) = true := by
  unfold bucketArticleTenure at h
  split at h
  · next hnone =>
    obtain rfl := Except.ok.inj h
    exact iff_of_true rfl hnone
  · next hnone =>
    simp only [Lib.except_bind_eq_ok, Lib.except_pure_eq_ok] at h
    obtain ⟨served, -, published, -, rfl⟩ := h
    refine iff_of_false ?_ hnone
    split <;> decide

theorem bucketLanguage_eq_unknown_iff {row : Row E} :
    bucketLanguage row = "unknown" ↔ ¬ ∃ s, languageOf row = some s ∧ s ≠ "" ∧ s ≠ "unknown" := by
  unfold bucketLanguage
  cases languageOf row with
  | none => simp
  | some s => by_cases hs : s = "" <;> simp [hs]

theorem strOf_eq_unknown_iff {s : Option String} : strOf s = "unknown" ↔ s = some "unknown" := by
  cases s with
  | none => simp [strOf]
  | some s => simp [strOf]

/-- **A bucket is `unknown`** exactly when the request does not name its segments. -/
theorem unknown_iff_not_namesSegments {first : Row E} {rest : List (Row E)}
    {keys : Segment → String} (h : segmentBucketKeys (first :: rest) = .ok keys) :
    (∃ segment, keys segment = "unknown") ↔ ¬ NamesSegments first rest := by
  unfold segmentBucketKeys at h
  simp only [Lib.except_bind_eq_ok, Lib.except_pure_eq_ok] at h
  obtain ⟨articleTenure, htenure, rfl⟩ := h
  have htenure := bucketArticleTenure_eq_ok htenure
  rw [Bool.or_eq_true] at htenure
  constructor
  · rintro ⟨segment, hsegment⟩ hnames
    cases segment with
    | userTenure =>
      have hsegment : bucketUserTenure first = "unknown" := hsegment
      unfold bucketUserTenure at hsegment
      split at hsegment <;> simp at hsegment
    | articleTenure =>
      rcases htenure.mp hsegment with hnone | hnone
      · exact Bool.false_ne_true (hnames.published.symm.trans hnone)
      · exact Bool.false_ne_true (hnames.served.symm.trans hnone)
    | historyLength =>
      have hsegment : bucketHistoryLength first = "unknown" := hsegment
      unfold bucketHistoryLength at hsegment
      split_ifs at hsegment <;> simp at hsegment
    | feedSource =>
      have hfeed : first.feedSource.getD none = some "unknown" := strOf_eq_unknown_iff.mp hsegment
      cases hsource : first.feedSource with
      | none => rw [hsource] at hfeed; cases hfeed
      | some source =>
        rw [hsource] at hfeed
        exact hnames.feedSource (hsource.trans (congrArg some hfeed))
    | language => exact bucketLanguage_eq_unknown_iff.mp hsegment hnames.language
  · intro hnames
    by_contra hkeys
    push Not at hkeys
    refine hnames ⟨?_, ?_, ?_, ?_⟩
    · exact Bool.not_eq_true _ |>.mp fun hnone =>
        hkeys .articleTenure (htenure.mpr (.inl hnone))
    · exact Bool.not_eq_true _ |>.mp fun hnone =>
        hkeys .articleTenure (htenure.mpr (.inr hnone))
    · exact not_not.mp fun hno => hkeys .language (bucketLanguage_eq_unknown_iff.mpr hno)
    · intro hfeed
      exact hkeys .feedSource (strOf_eq_unknown_iff.mpr (by rw [hfeed]; rfl))

end Names

/-- Why a model is not promoted. -/
inductive Ineligible where
  | insufficientTestRequests
  | insufficientAucEligibleRequests
  | missingSegmentMetadata
  | rankingMetricRegression
  | productGuardrailRegression
  deriving DecidableEq, Repr

def Ineligible.reason : Ineligible → String
  | .insufficientTestRequests => "insufficient_test_requests"
  | .insufficientAucEligibleRequests => "insufficient_auc_eligible_requests"
  | .missingSegmentMetadata => "missing_segment_metadata"
  | .rankingMetricRegression => "ranking_metric_regression"
  | .productGuardrailRegression => "product_guardrail_regression"

/-- The verdict of the comparison. -/
inductive Promotion where
  | ineligible (why : Ineligible)
  | eligible (conclusion : String)
  deriving DecidableEq, Repr

/-- The models of the report. -/
structure Models (F : Type) where
  loggedPositionBaseline : ModelMetrics F
  meanPoolLogisticBaseline : ModelMetrics F
  pureModel : ModelMetrics F
  postPolicy : ModelMetrics F

/-- What `compare_nrms_holdout` returns. -/
structure Report (F : Type) where
  requests : Nat
  impressions : Nat
  aucEligibleRequests : Nat
  models : Models F
  pureVsLoggedPosition : Comparison F
  pureVsLogistic : Comparison F
  segments : OrderedDict Segment (OrderedDict String (SegmentMetrics F))
  promotion : Promotion

/-- The keyword arguments of `compare_nrms_holdout`. -/
structure Options (F : Type) where
  minimumRequests : Int
  minimumAucRequests : Option Int
  rankingTolerance : F
  guardrailTolerance : F
  k : Nat

section Compare

variable {F E : Type} (n : Numerics F E)

/-- The defaults of the keyword arguments. -/
def defaultOptions : Options F where
  minimumRequests := 30
  minimumAucRequests := none
  rankingTolerance := n.ofRat (1 / 100)
  guardrailTolerance := n.ofRat (2 / 100)
  k := 5

/-- `missing_segment_metadata`. -/
def missingSegmentMetadata
    (segments : OrderedDict Segment (OrderedDict String (SegmentMetrics F))) : Bool :=
  segments.any fun segment => segment.2.any fun bucket => bucket.1 == "unknown"

/-- `ranking_regression`. -/
def rankingRegression (tolerance : F) (model baseline : ModelMetrics F) : Bool :=
  metrics.any fun metric =>
    match model.get metric, baseline.get metric with
    | some a, some b => n.lt a (n.sub b tolerance)
    | _, _ => false

/-- `guardrail_regression`. -/
def guardrailRegression (tolerance : F) (model baseline : ModelMetrics F) : Bool :=
  n.lt model.coverageAtK (n.sub baseline.coverageAtK tolerance)
    || n.lt model.embeddingDiversityAtK (n.sub baseline.embeddingDiversityAtK tolerance)
    || n.lt (n.add baseline.strongNegativeRateAtK tolerance) model.strongNegativeRateAtK

/-- The rows of a split. -/
def splitRows (rows : List (Row E)) (name : String) : List (Row E) :=
  ((OrderedDict.groupBy (·.split) rows).get name).getD []

/-- `test_by_request`. -/
def testByRequest (rows : List (Row E)) : OrderedDict String (List (Row E)) :=
  OrderedDict.groupBy (·.requestGroup) (splitRows rows "test")

/-- `heuristic_scores`. -/
def heuristicScores (testRows : List (Row E)) : OrderedDict String F :=
  scoreRows testRows (testRows.map fun row => n.neg (n.ofRat row.position))

/-- `post_policy_scores`. -/
def allPostPolicyScores (requests : OrderedDict String (List (Row E)))
    (pure heuristic : OrderedDict String F) : OrderedDict String F :=
  requests.foldl
    (fun scores request => scores.update (postPolicyScores n request.2 pure heuristic)) []

/-- `promotion`. -/
def promotionOf (options : Options F) (requestCount : Nat) (models : Models F)
    (segments : OrderedDict Segment (OrderedDict String (SegmentMetrics F)))
    (pureVsLoggedPosition : Comparison F) : Except Raised Promotion :=
  let minimumAucRequests := options.minimumAucRequests.getD options.minimumRequests
  if (requestCount : Int) < options.minimumRequests then
    .ok (.ineligible .insufficientTestRequests)
  else if (models.pureModel.impressionAucEligibleRequests : Int) < minimumAucRequests then
    .ok (.ineligible .insufficientAucEligibleRequests)
  else if missingSegmentMetadata segments then
    .ok (.ineligible .missingSegmentMetadata)
  else if rankingRegression n options.rankingTolerance models.pureModel
      models.loggedPositionBaseline then
    .ok (.ineligible .rankingMetricRegression)
  else if guardrailRegression n options.guardrailTolerance models.pureModel
      models.loggedPositionBaseline then
    .ok (.ineligible .productGuardrailRegression)
  else
    match pureVsLoggedPosition.get .ndcgAt10 with
    | none => .error (.keyError "ndcg_at_10")
    | some interval =>
      .ok (.eligible (if n.lt (n.ofRat 0) interval.ci95.1 then "win" else "no_regression"))

/-- `compare_nrms_holdout`, of an artifact that scores rows. -/
def compareNrmsHoldout (artifact : List (Row E) → Except Raised (List F)) (options : Options F)
    (rows : List (Row E)) : Except Raised (Report F) := do
  raiseIf (options.minimumRequests ≤ 0) "minimum_requests must be positive"
  raiseIf (options.minimumAucRequests.getD options.minimumRequests ≤ 0)
    "minimum_auc_requests must be positive"
  validateV2SegmentContract rows
  let testRows := splitRows rows "test"
  raiseIf testRows.isEmpty "dataset has no test holdout"
  let requests := testByRequest rows
  let heuristic := heuristicScores n testRows
  let logistic := logisticBaselineScores n (splitRows rows "train") testRows
  let scores ← artifact testRows
  raiseIf (scores.length ≠ testRows.length) "zip() arguments have different lengths"
  let pure := scoreRows testRows scores
  let postPolicy := allPostPolicyScores n requests pure heuristic
  let models : Models F :=
    { loggedPositionBaseline := aggregateModelMetrics n requests heuristic options.k
      meanPoolLogisticBaseline := aggregateModelMetrics n requests logistic options.k
      pureModel := aggregateModelMetrics n requests pure options.k
      postPolicy := aggregateModelMetrics n requests postPolicy options.k }
  let segments ← segmentReport n requests pure
    [("logged_position", heuristic), ("logistic", logistic)]
  let pureVsLoggedPosition := pairedRankingComparison n requests pure heuristic
  let pureVsLogistic := pairedRankingComparison n requests pure logistic
  let promotion ← promotionOf n options requests.length models segments pureVsLoggedPosition
  return {
    requests := requests.length
    impressions := testRows.length
    aucEligibleRequests := models.pureModel.impressionAucEligibleRequests
    models
    pureVsLoggedPosition
    pureVsLogistic
    segments
    promotion }

/-! ### What a report is made of -/

section Spec

variable {n} {rows : List (Row E)} {scores : OrderedDict String F}
  {artifact : List (Row E) → Except Raised (List F)} {report : Report F}

theorem splitRows_eq (rows : List (Row E)) (name : String) :
    splitRows rows name = rows.filter fun row => row.split = name :=
  OrderedDict.getD_groupBy _ rows name

/-- The verdict is eligible exactly when no reason against it holds. -/
theorem promotionOf_eligible_iff {options : Options F} {requestCount : Nat} {models : Models F}
    {segments : OrderedDict Segment (OrderedDict String (SegmentMetrics F))} {comparison : Comparison F}
    {promotion : Promotion}
    (h : promotionOf n options requestCount models segments comparison = .ok promotion) :
    (∃ conclusion, promotion = .eligible conclusion)
      ↔ options.minimumRequests ≤ requestCount
        ∧ options.minimumAucRequests.getD options.minimumRequests
            ≤ models.pureModel.impressionAucEligibleRequests
        ∧ missingSegmentMetadata segments = false
        ∧ rankingRegression n options.rankingTolerance models.pureModel
            models.loggedPositionBaseline = false
        ∧ guardrailRegression n options.guardrailTolerance models.pureModel
            models.loggedPositionBaseline = false := by
  unfold promotionOf at h
  dsimp only at h
  split at h
  · next hcount =>
    obtain rfl := Except.ok.inj h
    simp [show ¬ options.minimumRequests ≤ (requestCount : Int) by omega]
  next hcount =>
  split at h
  · next hauc =>
    obtain rfl := Except.ok.inj h
    simp only [reduceCtorEq, exists_false, false_iff]
    rintro ⟨-, hle, -⟩
    omega
  next hauc =>
  split at h
  · next hmissing =>
    obtain rfl := Except.ok.inj h
    simp [hmissing]
  next hmissing =>
  split at h
  · next hranking =>
    obtain rfl := Except.ok.inj h
    simp [hranking]
  next hranking =>
  split at h
  · next hguardrail =>
    obtain rfl := Except.ok.inj h
    simp [hguardrail]
  next hguardrail =>
  split at h
  · cases h
  · obtain rfl := Except.ok.inj h
    refine iff_of_true ⟨_, rfl⟩ ⟨by omega, by omega, ?_, ?_, ?_⟩
    · simpa using hmissing
    · simpa using hranking
    · simpa using hguardrail

/-- **A report**: the artifact scored the test rows, and the report has the metrics of these scores
    and the verdict on them. -/
theorem compareNrmsHoldout_eq_ok {options : Options F}
    (h : compareNrmsHoldout n artifact options rows = .ok report) :
    ∃ values, artifact (splitRows rows "test") = .ok values
      ∧ report.requests = (testByRequest rows).length
      ∧ report.models.pureModel
          = aggregateModelMetrics n (testByRequest rows)
              (scoreRows (splitRows rows "test") values) options.k
      ∧ report.models.loggedPositionBaseline
          = aggregateModelMetrics n (testByRequest rows)
              (heuristicScores n (splitRows rows "test")) options.k
      ∧ (∃ baselines, segmentReport n (testByRequest rows)
          (scoreRows (splitRows rows "test") values) baselines = .ok report.segments)
      ∧ promotionOf n options report.requests report.models report.segments
          report.pureVsLoggedPosition = .ok report.promotion := by
  unfold compareNrmsHoldout at h
  simp only [Lib.except_bind_eq_ok, Lib.except_pure_eq_ok] at h
  obtain ⟨-, -, -, -, -, -, -, -, values, hvalues, -, -, segments, hsegments, promotion, hpromotion,
    rfl⟩ := h
  exact ⟨values, hvalues, rfl, rfl, rfl, ⟨_, hsegments⟩, hpromotion⟩

theorem segmentReport_eq_ok {requests : OrderedDict String (List (Row E))}
    {baselines : List (String × OrderedDict String F)}
    {segments : OrderedDict Segment (OrderedDict String (SegmentMetrics F))}
    (h : segmentReport n requests scores baselines = .ok segments) :
    ∃ keyed : List (KeyedRequest E), keyed.map Prod.fst = requests
      ∧ (∀ request ∈ keyed, segmentBucketKeys request.1.2 = .ok request.2)
      ∧ segments
          = nrmsSegments.map fun segment => (segment, segmentBuckets n scores baselines keyed segment) := by
  unfold segmentReport at h
  simp only [Lib.except_bind_eq_ok, Lib.except_pure_eq_ok] at h
  obtain ⟨keyed, hkeyed, rfl⟩ := h
  have hentry : ∀ request ∈ keyed, segmentBucketKeys request.1.2 = .ok request.2 := by
    intro request hrequest
    obtain ⟨_, -, hkeys⟩ := Lib.exists_of_mem_mapM hkeyed hrequest
    simp only [Lib.except_bind_eq_ok, Lib.except_pure_eq_ok] at hkeys
    obtain ⟨keys, hkeys, rfl⟩ := hkeys
    exact hkeys
  refine ⟨keyed, ?_, hentry, rfl⟩
  -- the traversal keeps the requests
  rw [Lib.mapM_eq_ok_iff] at hkeyed
  clear hentry
  induction requests generalizing keyed with
  | nil =>
    rw [List.map_nil, eq_comm, List.map_eq_nil_iff] at hkeyed
    rw [hkeyed]
    rfl
  | cons request requests ih =>
    cases keyed with
    | nil => simp at hkeyed
    | cons first keyed =>
      rw [List.map_cons, List.map_cons, List.cons.injEq] at hkeyed
      obtain ⟨hfirst, hkeyed⟩ := hkeyed
      simp only [Lib.except_bind_eq_ok, Lib.except_pure_eq_ok] at hfirst
      obtain ⟨keys, -, rfl⟩ := hfirst
      rw [List.map_cons, ih keyed hkeyed]

/-- **Missing metadata** is a request with the bucket `unknown`. -/
theorem missingSegmentMetadata_eq_true_iff (baselines : List (String × OrderedDict String F))
    (keyed : List (KeyedRequest E)) :
    missingSegmentMetadata (nrmsSegments.map fun segment =>
        (segment, segmentBuckets n scores baselines keyed segment)) = true
      ↔ ∃ request ∈ keyed, ∃ segment, request.2 segment = "unknown" := by
  unfold missingSegmentMetadata segmentBuckets
  simp only [List.any_map, List.any_eq_true, Function.comp_apply, Prod.map_fst, id_eq, beq_iff_eq]
  constructor
  · rintro ⟨segment, -, ⟨bucket, group⟩, hgroup, rfl⟩
    obtain ⟨hne, hgroup⟩ := OrderedDict.mem_groupBy _ hgroup
    obtain ⟨request, hrequest⟩ := List.exists_mem_of_ne_nil _ hne
    rw [hgroup, List.mem_filter, decide_eq_true_eq] at hrequest
    exact ⟨request, hrequest.1, segment, hrequest.2⟩
  · rintro ⟨request, hrequest, segment, hkey⟩
    have hsegment : segment ∈ nrmsSegments := by cases segment <;> decide
    exact ⟨segment, hsegment, _, OrderedDict.exists_mem_groupBy _ hrequest, hkey⟩

/-- The requests with an AUC are those of a sublist and others. -/
theorem eligibleRequests_mono {part all : OrderedDict String (List (Row E))} (h : part.Sublist all)
    (k k' : Nat) :
    (aggregateModelMetrics n part scores k).impressionAucEligibleRequests
      ≤ (aggregateModelMetrics n all scores k').impressionAucEligibleRequests :=
  (((h.map _).map _).filterMap _).length_le

/-- **A bucket has no more requests with an AUC than the report.** -/
theorem eligibleRequests_bucket_le {requests : OrderedDict String (List (Row E))}
    {baselines : List (String × OrderedDict String F)}
    {segments : OrderedDict Segment (OrderedDict String (SegmentMetrics F))}
    (h : segmentReport n requests scores baselines = .ok segments) {segment : Segment}
    {buckets : OrderedDict String (SegmentMetrics F)} (hbuckets : segments.get segment = some buckets)
    {bucket : String} {m : SegmentMetrics F} (hm : buckets.get bucket = some m) (k : Nat) :
    m.metrics.impressionAucEligibleRequests
      ≤ (aggregateModelMetrics n requests scores k).impressionAucEligibleRequests := by
  obtain ⟨keyed, rfl, -, rfl⟩ := segmentReport_eq_ok h
  obtain ⟨other, -, heq⟩ := List.mem_map.mp (OrderedDict.mem_of_get hbuckets)
  obtain ⟨rfl, rfl⟩ := Prod.mk.inj heq
  unfold segmentBuckets at hm
  rw [OrderedDict.get_map_value, Option.map_eq_some_iff] at hm
  obtain ⟨group, hgroup, rfl⟩ := hm
  obtain ⟨-, rfl⟩ := OrderedDict.mem_groupBy _ (OrderedDict.mem_of_get hgroup)
  exact eligibleRequests_mono (List.filter_sublist.map _) 5 k

end Spec

end Compare

end Oecophylla.Evaluation
