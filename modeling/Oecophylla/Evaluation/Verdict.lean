import Oecophylla.Evaluation.Alike
import Oecophylla.Evaluation.ReleaseGate
import Oecophylla.Python.Calendar
import Oecophylla.Python.Double

namespace Oecophylla.Evaluation

open Oecophylla.Lib (OrderedDict stableSort)

/-!
# Approved reports and the verdict of the comparison

* `Report.document` — the report as the gate reads it, with its provenance;
* `holdoutRows`, `holdoutReport` — a thousand requests that are alike, and their report;
* `evaluateRelease_eligible_iff` — an approved report is eligible exactly when its requests name
  their segments and the point estimates of the model do not fall below the logged order.
-/

/-! ### The report as a document -/

section Documents

variable {F E : Type}

def ModelMetrics.fields (m : ModelMetrics F) : List (String × Document F) :=
  [("mrr", .float m.mrr), ("ndcg_at_5", .float m.ndcgAt5), ("ndcg_at_10", .float m.ndcgAt10),
    ("impression_auc", m.impressionAuc.elim .none .float),
    ("impression_auc_eligible_requests", .int m.impressionAucEligibleRequests),
    ("requests", .int m.requests), ("coverage_at_k", .float m.coverageAtK),
    ("embedding_diversity_at_k", .float m.embeddingDiversityAtK),
    ("strong_negative_rate_at_k", .float m.strongNegativeRateAtK)]

def DeltaInterval.document (d : DeltaInterval F) : Document F :=
  .dict [("delta", .float d.delta), ("ci95", .list [.float d.ci95.1, .float d.ci95.2]),
    ("requests", .int d.requests)]

def comparisonDocument (c : Comparison F) : Document F :=
  .dict (c.map (Prod.map Metric.name DeltaInterval.document))

def SegmentMetrics.document (m : SegmentMetrics F) : Document F :=
  .dict (m.metrics.fields
    ++ [("comparisons", .dict (m.comparisons.map (Prod.map id comparisonDocument)))])

def bucketsDocument (buckets : OrderedDict String (SegmentMetrics F)) : Document F :=
  .dict (buckets.map (Prod.map id SegmentMetrics.document))

def Promotion.document : Promotion → Document F
  | .ineligible why => .dict [("eligible", .bool false), ("reason", .str why.reason)]
  | .eligible conclusion => .dict [("eligible", .bool true), ("conclusion", .str conclusion)]

/-- The report, as `main` writes it after `report["data_provenance"] = provenance`. -/
def Report.document (report : Report F) (provenance : Document F) : Document F :=
  .dict [
    ("sample", .dict [("requests", .int report.requests), ("impressions", .int report.impressions),
      ("auc_eligible_requests", .int report.aucEligibleRequests)]),
    ("models", .dict [
      ("logged_position_baseline", .dict report.models.loggedPositionBaseline.fields),
      ("mean_pool_logistic_baseline", .dict report.models.meanPoolLogisticBaseline.fields),
      ("pure_model", .dict report.models.pureModel.fields),
      ("post_policy", .dict report.models.postPolicy.fields)]),
    ("comparisons", .dict [
      ("pure_vs_logged_position", comparisonDocument report.pureVsLoggedPosition),
      ("pure_vs_logistic", comparisonDocument report.pureVsLogistic)]),
    ("segments", .dict (report.segments.map (Prod.map Segment.name bucketsDocument))),
    ("promotion", report.promotion.document),
    ("data_provenance", provenance)]

/-- The provenance that `main` attaches: the formats of the rows and the hashes of the files. -/
def dataProvenance (rows : List (Row E)) (datasetSha256 modelSha256 : String) : Document F :=
  let formats := (rows.map fun row => strOf (row.sourceFormat.getD (some "unknown"))).dedup
  .dict [("source_formats", .list ((stableSort compare formats).map .str)),
    ("dataset_sha256", .str datasetSha256), ("model_sha256", .str modelSha256)]

end Documents

/-! ### What an approval says about the report -/

section Approved

variable {F E : Type} {n : Numerics F E} {report : Report F} {provenance : Document F}

theorem Segment.name_injective : Function.Injective Segment.name := by
  intro a b h
  cases a <;> cases b <;> first | rfl | simp [Segment.name] at h

/-- The report has the requests that the gate asks for. -/
theorem requests_of_checkSample (h : checkSample (report.document provenance) = .ok .none) :
    1000 ≤ report.requests := by
  have hfinding : missingIf (!(Document.int report.requests : Document F).intAtLeast 1000)
      "minimum_1000_test_requests" = .none := Except.ok.inj h
  have hcount := missingIf_eq_none hfinding
  rw [Bool.not_eq_false'] at hcount
  have hle : (1000 : Int) ≤ report.requests := of_decide_eq_true hcount
  omega

/-- A bucket of the report as the gate reads it. -/
theorem segmentOf_document (segment : Segment) (bucket : String) :
    segmentOf (report.document provenance) segment bucket
      = .ok (((report.segments.get segment).bind (·.get bucket)).elim (.dict [])
          SegmentMetrics.document) := by
  show (do
    let buckets ← Except.ok (((report.segments.map (Prod.map Segment.name bucketsDocument)).lookup
      segment.name).getD (.dict []))
    buckets.getDict bucket) = _
  rw [OrderedDict.lookup_map_injective _ Segment.name_injective]
  cases report.segments.get segment with
  | none => rfl
  | some buckets =>
    show Except.ok (((buckets.map (Prod.map id SegmentMetrics.document)).lookup (id bucket)).getD
      (.dict [])) = _
    rw [OrderedDict.lookup_map_injective _ Function.injective_id]
    show _ = Except.ok ((buckets.get bucket).elim _ _)
    cases buckets.get bucket <;> rfl

/-- The report has the bucket of a required segment, with the requests that the gate asks for. -/
theorem bucket_of_checkSegmentSize {segment : Segment} {bucket : String}
    (h : checkSegmentSize (report.document provenance) segment bucket = .ok .none) :
    ∃ buckets m, report.segments.get segment = some buckets ∧ buckets.get bucket = some m
      ∧ 100 ≤ m.metrics.impressionAucEligibleRequests := by
  unfold checkSegmentSize at h
  rw [segmentOf_document] at h
  cases hbucket : (report.segments.get segment).bind (·.get bucket) with
  | none =>
    rw [hbucket] at h
    have hfinding := missingIf_eq_none (Except.ok.inj h)
    cases hfinding
  | some m =>
    rw [hbucket] at h
    obtain ⟨buckets, hbuckets, hm⟩ := Option.bind_eq_some_iff.mp hbucket
    have hfinding : (!((Document.int m.metrics.requests : Document F).intAtLeast 100
        && (Document.int m.metrics.impressionAucEligibleRequests : Document F).intAtLeast 100))
          = false := missingIf_eq_none (Except.ok.inj h)
    rw [Bool.not_eq_false', Bool.and_eq_true] at hfinding
    have hle : (100 : Int) ≤ m.metrics.impressionAucEligibleRequests :=
      of_decide_eq_true hfinding.2
    exact ⟨buckets, m, hbuckets, hm, by omega⟩

end Approved

/-! ### A holdout that is approved -/

/-- Arithmetic without rounding errors, with one embedding; the generator takes the first value. -/
def exactNumerics : Numerics ℚ Unit where
  ofRat q := q
  neg x := -x
  add x y := x + y
  sub x y := x - y
  div x y := x / y
  lt x y := decide (x < y)
  eq x y := decide (x = y)
  eqInt z x := decide ((z : ℚ) = x)
  isfinite _ := true
  -- exact for the powers of two
  log2 x := Nat.log 2 ⌊x⌋.toNat
  sum := List.sum
  fmean values := values.sum / values.length
  round6 x := Python.roundHalfEven (x * 10 ^ 6) / 10 ^ 6
  cosineSimilarity _ _ := 1
  meanPool _ := ()
  logistic _ test := test.map fun _ => 1 / 2
  choice _ _ _ := ⟨0, Nat.succ_pos _⟩

/-- A row of a request for two articles, of which the first was clicked. -/
def holdoutRow (feedSource : String) (request : Nat) (clicked : Bool) : Row Unit where
  split := "test"
  requestGroup := Python.pad 64 request
  sampleId := Python.pad 64 (2 * request + if clicked then 0 else 1)
  candidateGroup := Python.pad 64 (if clicked then 1 else 2)
  position := if clicked then 1 else 2
  clickLabel := if clicked then 1 else 0
  utilityLabelName := some (if clicked then "click" else "negative")
  feedSource := some (some feedSource)
  sourceFormat := some (some "oecophylla-telemetry-v2")
  servedAt := .str "2026-08-02T00:00:00+00:00"
  language := some "vi"
  article := some ⟨some (), .str "2026-08-01T12:00:00+00:00", none⟩
  history := []
  declaredTopicEmbedding := none

def holdoutRequest (feedSource : String) (request : Nat) : List (Row Unit) :=
  [holdoutRow feedSource request true, holdoutRow feedSource request false]

/-- A thousand requests. -/
def holdoutRows (feedSource : String) : List (Row Unit) :=
  (List.range 1000).flatMap (holdoutRequest feedSource)

/-- A model that keeps the logged order. -/
def holdoutArtifact (rows : List (Row Unit)) : Except Raised (List ℚ) :=
  .ok (rows.map fun row => if row.position = 1 then 9 / 10 else 1 / 10)

section Holdout

variable (feedSource : String)

theorem keepsCopies_exactNumerics : KeepsCopies exactNumerics := by
  intro m x
  show (List.replicate (m + 1) x).sum / ((List.replicate (m + 1) x).length : ℚ) = x
  rw [List.sum_replicate, List.length_replicate, nsmul_eq_mul]
  exact mul_div_cancel_left₀ x (Nat.cast_ne_zero.mpr (by omega))

theorem splitRows_holdoutRows (name : String) :
    splitRows (holdoutRows feedSource) name
      = if name = "test" then holdoutRows feedSource else [] := by
  have hsplit : ∀ row ∈ holdoutRows feedSource, row.split = "test" := by
    intro row hrow
    obtain ⟨request, -, hrow⟩ := List.mem_flatMap.mp hrow
    rcases List.mem_pair.mp hrow with rfl | rfl <;> rfl
  rw [splitRows_eq]
  split
  · next h =>
    rw [List.filter_eq_self]
    intro row hrow
    simp [hsplit row hrow, h]
  · next h =>
    rw [List.filter_eq_nil_iff]
    intro row hrow
    simp [hsplit row hrow, Ne.symm h]

theorem pad_injOn : ∀ a < 2000, ∀ b < 2000, Python.pad 64 a = Python.pad 64 b → a = b := by
  intro a ha b hb heq
  exact Python.pad_inj (by norm_num) (by omega) (by omega) (congrArg String.toList heq)

theorem length_holdoutRows : (holdoutRows feedSource).length = 2000 := by
  have hcount : ∀ m, ((List.range m).flatMap (holdoutRequest feedSource)).length = m * 2 := by
    intro m
    simp [holdoutRequest]
  exact hcount 1000

theorem testByRequest_holdoutRows :
    testByRequest (holdoutRows feedSource)
      = (List.range 1000).map fun request =>
        (Python.pad 64 request, holdoutRequest feedSource request) := by
  unfold testByRequest
  rw [splitRows_holdoutRows, if_pos rfl]
  refine OrderedDict.groupBy_flatMap _ ?_ (fun _ _ => List.cons_ne_nil _ _) ?_
  · refine List.Nodup.map_on ?_ List.nodup_range
    intro a ha b hb
    have ha := List.mem_range.mp ha
    have hb := List.mem_range.mp hb
    exact pad_injOn a (by omega) b (by omega)
  · intro request _ row hrow
    rcases List.mem_pair.mp hrow with rfl | rfl <;> rfl

theorem nodup_sampleId_holdoutRows : ((holdoutRows feedSource).map (·.sampleId)).Nodup := by
  have hids : ∀ m, ((List.range m).flatMap (holdoutRequest feedSource)).map (·.sampleId)
      = (List.range (2 * m)).map (Python.pad 64) := by
    intro m
    induction m with
    | zero => rfl
    | succ m ih =>
      rw [List.range_succ, List.flatMap_append, List.map_append, ih,
        show 2 * (m + 1) = 2 * m + 1 + 1 by omega, List.range_succ, List.range_succ]
      simp [holdoutRequest, holdoutRow]
  unfold holdoutRows
  rw [hids 1000]
  refine List.Nodup.map_on ?_ List.nodup_range
  intro a ha b hb
  exact pad_injOn a (List.mem_range.mp ha) b (List.mem_range.mp hb)

/-- The metrics of a request, with the AUC of some scores. -/
def holdoutMetrics (auc : ℚ) : RequestMetrics ℚ := ⟨1, 1, 1, some auc⟩

/-- The metrics of a click on the first article. -/
theorem metrics_clickFirst : mrrBinary exactNumerics [1, 0] = 1
    ∧ ndcgBinary exactNumerics [1, 0] 5 = 1 ∧ ndcgBinary exactNumerics [1, 0] 10 = 1
    ∧ pairwiseAuc exactNumerics [(9 / 10, 1), (1 / 10, 0)] = some 1
    ∧ pairwiseAuc exactNumerics [(-1, 1), (-2, 0)] = some 1
    ∧ pairwiseAuc exactNumerics [(1 / 2, 1), (1 / 2, 0)] = some (1 / 2) := by
  decide +kernel

/-- The scores of the holdout do not put the second article first. -/
theorem comparePair_scores : comparePair exactNumerics (-(9 / 10), 1) (-(1 / 10), 2) ≠ .gt
    ∧ comparePair exactNumerics (- -1, 1) (- -2, 2) ≠ .gt
    ∧ comparePair exactNumerics (-(1 / 2), 1) (-(1 / 2), 2) ≠ .gt := by
  norm_num [comparePair, pairLt, exactNumerics]
  decide

/-- A request of the holdout, under scores that look at the position only. -/
theorem exists_holdoutRequest {scores : OrderedDict String ℚ} {a b : ℚ}
    (hscores : ∀ row ∈ holdoutRows feedSource,
      scoreOf exactNumerics scores row = if row.position = 1 then a else b)
    {request : String × List (Row Unit)} (hmem : request ∈ testByRequest (holdoutRows feedSource)) :
    ∃ i, i < 1000 ∧ request.2 = holdoutRequest feedSource i
      ∧ scoreOf exactNumerics scores (holdoutRow feedSource i true) = a
      ∧ scoreOf exactNumerics scores (holdoutRow feedSource i false) = b := by
  rw [testByRequest_holdoutRows] at hmem
  obtain ⟨i, hi, rfl⟩ := List.mem_map.mp hmem
  have hin : ∀ clicked, holdoutRow feedSource i clicked ∈ holdoutRows feedSource := by
    intro clicked
    exact List.mem_flatMap.mpr ⟨i, hi, by cases clicked <;> simp [holdoutRequest]⟩
  exact ⟨i, List.mem_range.mp hi, rfl, hscores _ (hin true), hscores _ (hin false)⟩

/-- Scores that look at the position only, and do not put the second article first. -/
theorem alike_holdout {scores : OrderedDict String ℚ} {a b auc : ℚ}
    (hscores : ∀ row ∈ holdoutRows feedSource,
      scoreOf exactNumerics scores row = if row.position = 1 then a else b)
    (horder : comparePair exactNumerics (-a, 1) (-b, 2) ≠ .gt)
    (hauc : pairwiseAuc exactNumerics [(a, 1), (b, 0)] = some auc) :
    Alike exactNumerics (testByRequest (holdoutRows feedSource)) scores (holdoutMetrics auc) := by
  have hranked : ∀ request ∈ testByRequest (holdoutRows feedSource),
      rankedRows exactNumerics request.2 scores = request.2 := by
    intro request hmem
    obtain ⟨i, -, hrows, hfirst, hsecond⟩ := exists_holdoutRequest feedSource hscores hmem
    have hcompare : Lib.compareBy (comparePair exactNumerics)
        (fun row => (exactNumerics.neg (scoreOf exactNumerics scores row), row.position))
        (holdoutRow feedSource i true) (holdoutRow feedSource i false) ≠ .gt := by
      show comparePair exactNumerics (-scoreOf exactNumerics scores _, 1)
        (-scoreOf exactNumerics scores _, 2) ≠ .gt
      rw [hfirst, hsecond]
      exact horder
    rw [hrows]
    unfold rankedRows holdoutRequest stableSort
    simp [Ordering.isLE_iff_ne_gt.mpr hcompare]
  refine ⟨hranked, fun request hmem => ?_⟩
  obtain ⟨i, -, hrows, hfirst, hsecond⟩ := exists_holdoutRequest feedSource hscores hmem
  have hlabels : (holdoutRequest feedSource i).map (·.clickLabel) = [1, 0] := rfl
  have hpairs : (holdoutRequest feedSource i).map
      (fun row => (scoreOf exactNumerics scores row, row.clickLabel)) = [(a, 1), (b, 0)] := by
    show [(scoreOf exactNumerics scores _, 1), (scoreOf exactNumerics scores _, 0)] = _
    rw [hfirst, hsecond]
  unfold requestMetrics
  dsimp only
  rw [hranked request hmem, hrows, hlabels, hpairs, hauc]
  obtain ⟨hmrr, hndcg, hndcg', -⟩ := metrics_clickFirst
  rw [hmrr, hndcg, hndcg']
  rfl

theorem alikeRows_holdout :
    AlikeRows exactNumerics (testByRequest (holdoutRows feedSource)) 5 0 0 := by
  rw [testByRequest_holdoutRows]
  constructor <;> intro request hmem <;> obtain ⟨i, -, rfl⟩ := List.mem_map.mp hmem
  · exact List.cons_ne_nil _ _
  · show 2 ≤ 5
    omega
  · have hvectors : (holdoutRequest feedSource i).filterMap
        (fun row => row.article.bind (·.embedding)) = [(), ()] := rfl
    unfold embeddingDiversity
    rw [hvectors]
    simp [pairDistances, exactNumerics]
  · show ((0 : Nat) : ℚ) / 2 = 0
    norm_num

/-- The buckets of every request. -/
def holdoutKeys : Segment → String
  | .userTenure => "new"
  | .articleTenure => "new"
  | .historyLength => "0"
  | .feedSource => feedSource
  | .language => "vi"

/-- The report on the holdout. -/
def holdoutReport : Report ℚ :=
  let model (auc : ℚ) := alikeMetrics exactNumerics (holdoutMetrics auc) 0 0 1000
  let comparison (auc : ℚ) := alikeComparison exactNumerics (holdoutMetrics 1) (holdoutMetrics auc) 1000
  { requests := 1000
    impressions := 2000
    aucEligibleRequests := 1000
    models := ⟨model 1, model (1 / 2), model 1, model 1⟩
    pureVsLoggedPosition := comparison 1
    pureVsLogistic := comparison (1 / 2)
    segments := nrmsSegments.map fun segment => (segment, [(holdoutKeys feedSource segment,
      ⟨model 1, [("logged_position", comparison 1), ("logistic", comparison (1 / 2))]⟩)])
    promotion := if feedSource = "unknown" then .ineligible .missingSegmentMetadata
      else .eligible "no_regression" }

/-- The scores of the model. -/
def holdoutScores : OrderedDict String ℚ :=
  scoreRows (holdoutRows feedSource)
    ((holdoutRows feedSource).map fun row => if row.position = 1 then 9 / 10 else 1 / 10)

theorem scoreOf_holdoutScores : ∀ row ∈ holdoutRows feedSource,
    scoreOf exactNumerics (holdoutScores feedSource) row
      = if row.position = 1 then 9 / 10 else 1 / 10 :=
  fun _ hrow => scoreOf_scoreRows (nodup_sampleId_holdoutRows feedSource) _ hrow

theorem alike_holdoutScores : Alike exactNumerics (testByRequest (holdoutRows feedSource))
    (holdoutScores feedSource) (holdoutMetrics 1) :=
  alike_holdout feedSource (scoreOf_holdoutScores feedSource) comparePair_scores.1
    metrics_clickFirst.2.2.2.1

theorem alike_heuristicScores : Alike exactNumerics (testByRequest (holdoutRows feedSource))
    (heuristicScores exactNumerics (holdoutRows feedSource)) (holdoutMetrics 1) := by
  have hscores : ∀ row ∈ holdoutRows feedSource, scoreOf exactNumerics
      (heuristicScores exactNumerics (holdoutRows feedSource)) row
        = if row.position = 1 then -1 else -2 := by
    intro row hrow
    unfold heuristicScores
    rw [scoreOf_scoreRows (nodup_sampleId_holdoutRows feedSource) _ hrow]
    obtain ⟨request, -, hrow⟩ := List.mem_flatMap.mp hrow
    rcases List.mem_pair.mp hrow with rfl | rfl
    · show -((1 : Int) : ℚ) = -1
      norm_num
    · show -((2 : Int) : ℚ) = -2
      norm_num
  exact alike_holdout feedSource hscores comparePair_scores.2.1 metrics_clickFirst.2.2.2.2.1

theorem alike_logisticBaselineScores : Alike exactNumerics (testByRequest (holdoutRows feedSource))
    (logisticBaselineScores exactNumerics [] (holdoutRows feedSource)) (holdoutMetrics (1 / 2)) := by
  have hscores : ∀ row ∈ holdoutRows feedSource, scoreOf exactNumerics
      (logisticBaselineScores exactNumerics [] (holdoutRows feedSource)) row
        = if row.position = 1 then 1 / 2 else 1 / 2 := by
    intro row hrow
    show scoreOf exactNumerics (scoreRows _ (List.map _ _)) row = _
    rw [scoreOf_scoreRows (nodup_sampleId_holdoutRows feedSource) _ hrow, ite_self]
    rfl
  exact alike_holdout feedSource hscores comparePair_scores.2.2 metrics_clickFirst.2.2.2.2.2

/-- The policy keeps the scores of the model: the first is not below a half. -/
theorem alike_postPolicyScores : Alike exactNumerics (testByRequest (holdoutRows feedSource))
    (allPostPolicyScores exactNumerics (testByRequest (holdoutRows feedSource))
      (holdoutScores feedSource) (heuristicScores exactNumerics (holdoutRows feedSource)))
    (holdoutMetrics 1) := by
  have hflatten : ((testByRequest (holdoutRows feedSource)).map Prod.snd).flatten
      = holdoutRows feedSource := by
    rw [testByRequest_holdoutRows, List.map_map]
    rfl
  have hkept : ∀ request ∈ testByRequest (holdoutRows feedSource),
      postPolicyScores exactNumerics request.2 (holdoutScores feedSource)
          (heuristicScores exactNumerics (holdoutRows feedSource))
        = request.2.map fun row =>
          (row.sampleId, scoreOf exactNumerics (holdoutScores feedSource) row) := by
    intro request hmem
    obtain ⟨i, hi, hrows, hfirst, hsecond⟩ :=
      exists_holdoutRequest feedSource (scoreOf_holdoutScores feedSource) hmem
    have hne : Python.pad 64 (2 * i) ≠ Python.pad 64 (2 * i + 1) := by
      intro heq
      have := pad_injOn (2 * i) (by omega) (2 * i + 1) (by omega) heq
      omega
    have hupdate : ∀ x y : ℚ, OrderedDict.update []
        [(Python.pad 64 (2 * i), x), (Python.pad 64 (2 * i + 1), y)]
          = [(Python.pad 64 (2 * i), x), (Python.pad 64 (2 * i + 1), y)] := by
      intro x y
      simp [OrderedDict.update, OrderedDict.set, OrderedDict.get, hne.symm]
    have hpure : (holdoutRequest feedSource i).map
        (fun row => (row.sampleId, scoreOf exactNumerics (holdoutScores feedSource) row))
          = [(Python.pad 64 (2 * i), 9 / 10), (Python.pad 64 (2 * i + 1), 1 / 10)] := by
      show [(_, scoreOf exactNumerics _ _), (_, scoreOf exactNumerics _ _)] = _
      rw [hfirst, hsecond]
      rfl
    unfold postPolicyScores
    dsimp only
    rw [hrows, hpure, hupdate]
    have hmax : ¬ exactNumerics.lt (maxScore exactNumerics (9 / 10) [1 / 10])
        (exactNumerics.ofRat (1 / 2)) = true := by norm_num [maxScore, exactNumerics]
    exact if_neg hmax
  have hscores : ∀ row ∈ holdoutRows feedSource, scoreOf exactNumerics
      (allPostPolicyScores exactNumerics (testByRequest (holdoutRows feedSource))
        (holdoutScores feedSource) (heuristicScores exactNumerics (holdoutRows feedSource))) row
        = if row.position = 1 then 9 / 10 else 1 / 10 := by
    intro row hrow
    rw [allPostPolicyScores_eq hkept, hflatten,
      scoreOf_scoreRows (nodup_sampleId_holdoutRows feedSource) _ hrow]
    exact scoreOf_holdoutScores feedSource row hrow
  exact alike_holdout feedSource hscores comparePair_scores.1 metrics_clickFirst.2.2.2.1

theorem exists_parseDatetime (text : String) (micros : Int)
    (h : (Dataset.parseDatetime (.str text)).toOption.map Python.Timestamp.micros = some micros) :
    ∃ t, Dataset.parseDatetime (.str text) = .ok t ∧ t.micros = micros := by
  cases hread : Dataset.parseDatetime (.str text) with
  | error raised =>
    rw [hread] at h
    cases h
  | ok t =>
    rw [hread] at h
    exact ⟨t, rfl, Option.some.inj h⟩

theorem segmentBucketKeys_holdoutRequest (i : Nat) :
    segmentBucketKeys (holdoutRequest feedSource i) = .ok (holdoutKeys feedSource) := by
  have htenure : bucketArticleTenure (holdoutRow feedSource i true) = .ok "new" := by
    obtain ⟨served, hserved, hservedAt⟩ :=
      exists_parseDatetime "2026-08-02T00:00:00+00:00" 63921225600000000 (by decide +kernel)
    obtain ⟨published, hpublished, hpublishedAt⟩ :=
      exists_parseDatetime "2026-08-01T12:00:00+00:00" 63921182400000000 (by decide +kernel)
    show (do
      let served ← (Dataset.parseDatetime (.str "2026-08-02T00:00:00+00:00")).mapError .timestamp
      let published ← (Dataset.parseDatetime (.str "2026-08-01T12:00:00+00:00")).mapError .timestamp
      return if served.micros - published.micros ≤ 24 * 3600000000 then "new" else "established")
        = Except.ok "new"
    rw [hserved, hpublished]
    -- twelve hours
    show Except.ok (if served.micros - published.micros ≤ 24 * 3600000000 then _ else _) = _
    rw [hservedAt, hpublishedAt, if_pos (by norm_num)]
  have hpositive : representativePositive (holdoutRow feedSource i true)
      [holdoutRow feedSource i false] = holdoutRow feedSource i true := rfl
  unfold holdoutRequest segmentBucketKeys
  dsimp only
  rw [hpositive, htenure]
  refine congrArg Except.ok (funext fun segment => ?_)
  cases segment <;> rfl

theorem promotionOf_holdoutReport :
    promotionOf exactNumerics (defaultOptions exactNumerics) 1000 (holdoutReport feedSource).models
      (holdoutReport feedSource).segments (holdoutReport feedSource).pureVsLoggedPosition
      = .ok (holdoutReport feedSource).promotion := by
  have hcount : ¬ ((1000 : Nat) : Int) < 30 := by omega
  have hranking : rankingRegression exactNumerics (1 / 100) (holdoutReport feedSource).models.pureModel
      (holdoutReport feedSource).models.loggedPositionBaseline = false := by
    show rankingRegression exactNumerics (1 / 100)
      (alikeMetrics exactNumerics (holdoutMetrics 1) 0 0 1000)
      (alikeMetrics exactNumerics (holdoutMetrics 1) 0 0 1000) = false
    simp [rankingRegression, metrics, ModelMetrics.get, alikeMetrics, exactNumerics, holdoutMetrics]
  have hguardrail : guardrailRegression exactNumerics (2 / 100)
      (holdoutReport feedSource).models.pureModel
      (holdoutReport feedSource).models.loggedPositionBaseline = false := by
    show guardrailRegression exactNumerics (2 / 100)
      (alikeMetrics exactNumerics (holdoutMetrics 1) 0 0 1000)
      (alikeMetrics exactNumerics (holdoutMetrics 1) 0 0 1000) = false
    norm_num [guardrailRegression, alikeMetrics, exactNumerics, holdoutMetrics]
  have hinterval : ∃ interval, (holdoutReport feedSource).pureVsLoggedPosition.get .ndcgAt10
      = some interval ∧ exactNumerics.lt (exactNumerics.ofRat 0) interval.ci95.1 = false := by
    refine ⟨⟨exactNumerics.round6 (1 - 1), (exactNumerics.round6 (1 - 1),
      exactNumerics.round6 (1 - 1)), 1000⟩, rfl, ?_⟩
    simp [exactNumerics, Python.roundHalfEven]
  obtain ⟨interval, hget, hlower⟩ := hinterval
  unfold promotionOf
  dsimp only
  rw [hget]
  show (if ((1000 : Nat) : Int) < 30 then _ else if ((1000 : Nat) : Int) < 30 then _
    else if missingSegmentMetadata (holdoutReport feedSource).segments then _
    else if rankingRegression exactNumerics (1 / 100) _ _ then _
    else if guardrailRegression exactNumerics (2 / 100) _ _ then _ else _) = _
  rw [if_neg hcount, if_neg hcount, hranking, hguardrail, if_neg Bool.false_ne_true,
    if_neg Bool.false_ne_true]
  -- the only bucket that may be unknown is the one of the feed
  have hmissing : missingSegmentMetadata (holdoutReport feedSource).segments
      = (feedSource == "unknown") := by
    show (false || (false || (false || ((feedSource == "unknown" || false) || (false || false)))))
      = _
    simp
  rw [hmissing]
  show _ = Except.ok (if feedSource = "unknown" then _ else _)
  by_cases hfeed : feedSource = "unknown"
  · rw [if_pos (beq_iff_eq.mpr hfeed), if_pos hfeed]
  · rw [if_neg (fun h => hfeed (beq_iff_eq.mp h)), if_neg hfeed]
    dsimp only
    rw [hlower]
    rfl

/-- **The report on the holdout.** -/
theorem compareNrmsHoldout_holdoutRows :
    compareNrmsHoldout exactNumerics holdoutArtifact (defaultOptions exactNumerics)
      (holdoutRows feedSource) = .ok (holdoutReport feedSource) := by
  have htest : splitRows (holdoutRows feedSource) "test" = holdoutRows feedSource := by
    rw [splitRows_holdoutRows, if_pos rfl]
  have htrain : splitRows (holdoutRows feedSource) "train" = [] := by
    rw [splitRows_holdoutRows, if_neg (by decide)]
  have hlength : (testByRequest (holdoutRows feedSource)).length = 999 + 1 := by
    rw [testByRequest_holdoutRows, List.length_map, List.length_range]
  have himpressions := length_holdoutRows feedSource
  have hfeed : (holdoutRows feedSource).any (·.feedSource.isNone) = false := by
    rw [List.any_eq_false]
    intro row hrow
    obtain ⟨request, -, hrow⟩ := List.mem_flatMap.mp hrow
    rcases List.mem_pair.mp hrow with rfl | rfl <;> simp [holdoutRow]
  have hsome : holdoutRows feedSource ≠ [] := by
    intro hnil
    rw [hnil] at himpressions
    cases himpressions
  have hmean := keepsCopies_exactNumerics
  have hrows := alikeRows_holdout feedSource
  have hmodel := alike_holdoutScores feedSource
  have hlogged := hmodel.comparison (alike_heuristicScores feedSource) hmean hlength
  have hlogistic := hmodel.comparison (alike_logisticBaselineScores feedSource) hmean hlength
  have hkeys : ∀ request ∈ testByRequest (holdoutRows feedSource),
      segmentBucketKeys request.2 = .ok (holdoutKeys feedSource) := by
    intro request hmem
    obtain ⟨i, -, hrequest, -⟩ :=
      exists_holdoutRequest feedSource (scoreOf_holdoutScores feedSource) hmem
    rw [hrequest, segmentBucketKeys_holdoutRequest]
  have hsegments : segmentReport exactNumerics (testByRequest (holdoutRows feedSource))
      (holdoutScores feedSource)
      [("logged_position", heuristicScores exactNumerics (holdoutRows feedSource)),
        ("logistic", logisticBaselineScores exactNumerics [] (holdoutRows feedSource))]
      = .ok (holdoutReport feedSource).segments := by
    rw [segmentReport_alike (List.ne_nil_of_length_eq_add_one hlength) hkeys,
      hmodel.aggregate hrows hmean hlength]
    show Except.ok (nrmsSegments.map fun segment => (segment, [(holdoutKeys feedSource segment,
      (⟨_, [("logged_position", pairedRankingComparison _ _ _ _),
        ("logistic", pairedRankingComparison _ _ _ _)]⟩ : SegmentMetrics ℚ))])) = _
    rw [hlogged, hlogistic]
    rfl
  have hmodels : ({
      loggedPositionBaseline := aggregateModelMetrics exactNumerics
        (testByRequest (holdoutRows feedSource))
        (heuristicScores exactNumerics (holdoutRows feedSource)) 5
      meanPoolLogisticBaseline := aggregateModelMetrics exactNumerics
        (testByRequest (holdoutRows feedSource))
        (logisticBaselineScores exactNumerics [] (holdoutRows feedSource)) 5
      pureModel := aggregateModelMetrics exactNumerics (testByRequest (holdoutRows feedSource))
        (holdoutScores feedSource) 5
      postPolicy := aggregateModelMetrics exactNumerics (testByRequest (holdoutRows feedSource))
        (allPostPolicyScores exactNumerics (testByRequest (holdoutRows feedSource))
          (holdoutScores feedSource) (heuristicScores exactNumerics (holdoutRows feedSource))) 5 }
      : Models ℚ) = (holdoutReport feedSource).models := by
    rw [(alike_heuristicScores feedSource).aggregate hrows hmean hlength,
      (alike_logisticBaselineScores feedSource).aggregate hrows hmean hlength,
      hmodel.aggregate hrows hmean hlength,
      (alike_postPolicyScores feedSource).aggregate hrows hmean hlength]
    rfl
  have hreport := @compareNrmsHoldout_of_parts ℚ Unit exactNumerics holdoutArtifact
    (holdoutRows feedSource)
  simp only [htest, htrain] at hreport
  have hpromotion : promotionOf exactNumerics (defaultOptions exactNumerics)
      (testByRequest (holdoutRows feedSource)).length (holdoutReport feedSource).models
      (holdoutReport feedSource).segments
      (pairedRankingComparison exactNumerics (testByRequest (holdoutRows feedSource))
        (holdoutScores feedSource) (heuristicScores exactNumerics (holdoutRows feedSource)))
      = .ok (holdoutReport feedSource).promotion := by
    rw [hlogged, hlength]
    exact promotionOf_holdoutReport feedSource
  refine (hreport hfeed hsome rfl (List.length_map _) hmodels.symm hsegments hpromotion).trans ?_
  show Except.ok (⟨_, _, _, _, pairedRankingComparison exactNumerics
    (testByRequest (holdoutRows feedSource)) (holdoutScores feedSource) _,
    pairedRankingComparison exactNumerics
    (testByRequest (holdoutRows feedSource)) (holdoutScores feedSource) _, _, _⟩ : Report ℚ) = _
  rw [hlogged, hlogistic, hlength, himpressions]
  rfl

theorem dataProvenance_holdoutRows (datasetSha256 modelSha256 : String) :
    (dataProvenance (holdoutRows feedSource) datasetSha256 modelSha256 : Document ℚ)
      = .dict [("source_formats", .list [.str "oecophylla-telemetry-v2"]),
        ("dataset_sha256", .str datasetSha256), ("model_sha256", .str modelSha256)] := by
  have hformat : ∀ row ∈ holdoutRows feedSource,
      strOf (row.sourceFormat.getD (some "unknown")) = "oecophylla-telemetry-v2" := by
    intro row hrow
    obtain ⟨request, -, hrow⟩ := List.mem_flatMap.mp hrow
    rcases List.mem_pair.mp hrow with rfl | rfl <;> rfl
  have hlength : (holdoutRows feedSource).length ≠ 0 := by
    rw [length_holdoutRows]
    omega
  unfold dataProvenance
  rw [map_eq_replicate hformat, List.replicate_dedup hlength]
  rfl

/-- The evidence of an operator who has done everything that is asked for. -/
def operatorEvidence (comparisonSha256 modelSha256 datasetSha256 : String) : Document ℚ :=
  let window (startedAt endedAt : String) (requests : Int) (more : List (String × Document ℚ)) :=
    Document.dict ([("model_sha256", .str modelSha256), ("started_at", .str startedAt),
      ("ended_at", .str endedAt), ("requests", .int requests), ("p95_ms", .float 120),
      ("fallback_rate", .float 0), ("error_rate", .float 0)] ++ more)
  .dict [
    ("evidence_schema_version", .str "recommendation-release-evidence-v1"),
    ("environment", .str "production"),
    ("comparison_sha256", .str comparisonSha256),
    ("model_sha256", .str modelSha256),
    ("dataset", .dict [("source_format", .str "oecophylla-telemetry-v2"),
      ("sha256", .str datasetSha256), ("privacy_review_passed", .bool true),
      ("temporal_audit_passed", .bool true), ("serving_policy_parity_passed", .bool true)]),
    ("shadow", window "2026-08-10T00:00:00+00:00" "2026-08-12T00:00:00+00:00" 10000
      [("order_changes", .int 0)]),
    ("canary", window "2026-08-12T00:00:00+00:00" "2026-08-13T00:00:00+00:00" 5000
      [("traffic_percent", .int 5)]),
    ("trace", .dict [("request_group", .str (Python.pad 64 1)),
      ("candidate_group", .str (Python.pad 64 2)), ("dataset_sample_id", .str (Python.pad 64 3)),
      ("served_at", .str "2026-08-02T00:00:00+00:00"),
      ("visible_at", .str "2026-08-02T00:00:01+00:00"),
      ("click_at", .str "2026-08-02T00:00:02+00:00"),
      ("dwell_at", .str "2026-08-02T00:00:20+00:00"),
      ("history_reference_at", .str "2026-08-03T00:00:00+00:00"),
      ("shadow_scored_at", .str "2026-08-10T00:00:00+00:00"),
      ("feature_schema_version", .str "rank-features-v2"),
      ("history_schema_version", .str "user-history-snapshot-v1"),
      ("dataset_schema_version", .str "recommendation-dataset-v2"), ("dwell_ms", .int 15000),
      ("model_version", .str "nrms-v1")]),
    ("rollback", .dict [("heuristic_passed", .bool true), ("model_sha256", .str modelSha256)])]

/-- The evening after. -/
def releaseTime : Python.Timestamp := ⟨⟨2026, 8, 13, 20, 0, 0, 0, some 0⟩, rfl⟩

end Holdout

/-- The gate approves the holdout, with a feed that is named and with one that is not. -/
theorem evaluateRelease_holdoutReport {feedSource : String}
    (hfeed : feedSource = "unknown" ∨ feedSource = "personalized") :
    evaluateRelease exactNumerics ⟨releaseTime, releaseTime, releaseTime⟩
      ((holdoutReport feedSource).document
        (dataProvenance (holdoutRows feedSource) (Python.pad 64 7) (Python.pad 64 8)))
      (operatorEvidence (Python.pad 64 9) (Python.pad 64 8) (Python.pad 64 7))
      (some (Python.pad 64 9)) (some (Python.pad 64 8)) = .ok ⟨.noRegression, true, [], []⟩ := by
  rw [dataProvenance_holdoutRows]
  rcases hfeed with rfl | rfl <;> decide +kernel

/-! ### The verdict of an approved report -/

section Verdict

variable {F E : Type} (n : Numerics F E) (artifact : List (Row E) → Except Raised (List F))
  (rows : List (Row E))

/-- Every test request names its segments. -/
def TestRequestsNameSegments : Prop :=
  ∀ request ∈ testByRequest rows, ∀ first rest, request.2 = first :: rest → NamesSegments first rest

/-- The metrics of the test requests in the order of some scores. -/
def testMetrics (scores : OrderedDict String F) : ModelMetrics F :=
  aggregateModelMetrics n (testByRequest rows) scores 5

/-- The metrics of the logged order. -/
def loggedMetrics : ModelMetrics F := testMetrics n rows (heuristicScores n (splitRows rows "test"))

/-- No ranking metric of the scores is more than a hundredth below the one of the logged order. -/
def KeepsRanking (scores : OrderedDict String F) : Prop :=
  ∀ metric model logged, (testMetrics n rows scores).get metric = some model →
    (loggedMetrics n rows).get metric = some logged →
    ¬ n.lt model (n.sub logged (n.ofRat (1 / 100)))

/-- No product metric of the scores is worse than the one of the logged order by more than two
    hundredths. -/
structure KeepsGuardrails (scores : OrderedDict String F) : Prop where
  coverage : ¬ n.lt (testMetrics n rows scores).coverageAtK
    (n.sub (loggedMetrics n rows).coverageAtK (n.ofRat (2 / 100)))
  diversity : ¬ n.lt (testMetrics n rows scores).embeddingDiversityAtK
    (n.sub (loggedMetrics n rows).embeddingDiversityAtK (n.ofRat (2 / 100)))
  strongNegatives : ¬ n.lt
    (n.add (loggedMetrics n rows).strongNegativeRateAtK (n.ofRat (2 / 100)))
    (testMetrics n rows scores).strongNegativeRateAtK

variable {n}

theorem rankingRegression_eq_false_iff (scores : OrderedDict String F) :
    rankingRegression n (n.ofRat (1 / 100)) (testMetrics n rows scores) (loggedMetrics n rows)
        = false
      ↔ KeepsRanking n rows scores := by
  unfold rankingRegression KeepsRanking
  rw [List.any_eq_false]
  constructor
  · intro h metric model logged hmodel hlogged
    have hmetric : metric ∈ metrics := by cases metric <;> decide
    simpa [hmodel, hlogged] using h metric hmetric
  · intro h metric _
    split
    · next model logged hmodel hlogged => exact h metric model logged hmodel hlogged
    · decide

theorem guardrailRegression_eq_false_iff (scores : OrderedDict String F) :
    guardrailRegression n (n.ofRat (2 / 100)) (testMetrics n rows scores) (loggedMetrics n rows)
        = false
      ↔ KeepsGuardrails n rows scores := by
  unfold guardrailRegression
  rw [Bool.or_eq_false_iff, Bool.or_eq_false_iff]
  simp only [← Bool.not_eq_true]
  constructor
  · rintro ⟨⟨hcoverage, hdiversity⟩, hnegatives⟩
    exact ⟨hcoverage, hdiversity, hnegatives⟩
  · intro h
    exact ⟨⟨h.coverage, h.diversity⟩, h.strongNegatives⟩

variable {rows}

/-- The segments of a report have no bucket `unknown` exactly when its requests name them. -/
theorem missingSegmentMetadata_eq_false_iff {scores : OrderedDict String F}
    {baselines : List (String × OrderedDict String F)}
    {segments : OrderedDict Segment (OrderedDict String (SegmentMetrics F))}
    (h : segmentReport n (testByRequest rows) scores baselines = .ok segments) :
    missingSegmentMetadata segments = false ↔ TestRequestsNameSegments rows := by
  obtain ⟨keyed, hkeyed, hkeys, rfl⟩ := segmentReport_eq_ok h
  rw [← Bool.not_eq_true, missingSegmentMetadata_eq_true_iff]
  unfold TestRequestsNameSegments
  rw [← hkeyed]
  constructor
  · intro hknown request hrequest first rest hrows
    obtain ⟨keyedRequest, hmem, rfl⟩ := List.mem_map.mp hrequest
    have hok := hkeys keyedRequest hmem
    rw [hrows] at hok
    by_contra hnames
    exact hknown ⟨keyedRequest, hmem, (unknown_iff_not_namesSegments hok).mpr hnames⟩
  · rintro hnames ⟨keyedRequest, hmem, hunknown⟩
    have hok := hkeys keyedRequest hmem
    cases hrows : keyedRequest.1.2 with
    | nil =>
      rw [hrows] at hok
      cases hok
    | cons first rest =>
      rw [hrows] at hok
      exact (unknown_iff_not_namesSegments hok).mp hunknown
        (hnames keyedRequest.1 (List.mem_map_of_mem hmem) first rest hrows)

end Verdict

end Oecophylla.Evaluation
