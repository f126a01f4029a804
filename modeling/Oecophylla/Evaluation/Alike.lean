import Oecophylla.Evaluation.Holdout

namespace Oecophylla.Evaluation

open Oecophylla.Lib (OrderedDict stableSort)

/-!
# Holdouts whose requests are alike

Requests that have the same metrics under some scores: then the report has these metrics too, and
the intervals of the bootstrap are points, whatever the random generator draws.

* `scoreOf_scoreRows`, `allPostPolicyScores_eq` — the scores that are looked up;
* `Alike`, `Alike.aggregate` — the metrics of a model;
* `Alike.comparison` — the comparison of two of them;
* `segmentReport_alike` — the segments of requests with the same buckets.

What is used of the arithmetic is that the mean of copies of a value is the value.
-/

variable {F E : Type} {n : Numerics F E}

/-! ### Scores -/

section Scores

variable {rows : List (Row E)}

theorem scoreOf_scoreRows (hnodup : (rows.map (·.sampleId)).Nodup) (f : Row E → F) {row : Row E}
    (hrow : row ∈ rows) : scoreOf n (scoreRows rows (rows.map f)) row = f row := by
  unfold scoreOf scoreRows
  rw [List.zip_map', OrderedDict.get_update_of_mem ?_ []
    (List.mem_map.mpr ⟨row, hrow, rfl⟩ : (row.sampleId, f row) ∈ _)]
  · rfl
  · rw [List.map_map]
    exact hnodup

/-- The scores of the policy, when it keeps those of the model. -/
theorem allPostPolicyScores_eq {requests : OrderedDict String (List (Row E))}
    {pure heuristic : OrderedDict String F}
    (h : ∀ request ∈ requests, postPolicyScores n request.2 pure heuristic
      = request.2.map fun row => (row.sampleId, scoreOf n pure row)) :
    allPostPolicyScores n requests pure heuristic
      = scoreRows (requests.map Prod.snd).flatten
        ((requests.map Prod.snd).flatten.map (scoreOf n pure)) := by
  unfold allPostPolicyScores scoreRows
  rw [List.zip_map']
  induction requests using List.reverseRecOn with
  | nil => rfl
  | append_singleton requests request ih =>
    rw [List.foldl_append, ih fun r hr => h r (List.mem_append_left _ hr), List.foldl_cons,
      List.foldl_nil, h request (by simp), List.map_append, List.map_singleton, List.flatten_append,
      List.flatten_singleton, List.map_append]
    unfold OrderedDict.update
    rw [List.foldl_append]

end Scores

/-! ### Metrics -/

/-- The mean of copies of a value is the value. -/
def KeepsCopies (n : Numerics F E) : Prop := ∀ m x, n.fmean (List.replicate (m + 1) x) = x

theorem KeepsCopies.mean (h : KeepsCopies n) (m : Nat) (x : F) :
    mean n (List.replicate (m + 1) x) = n.round6 x := by
  unfold Evaluation.mean
  rw [h]
  rfl

/-- Requests that some scores rank as they were logged, each with the same metrics. -/
structure Alike (n : Numerics F E) (requests : OrderedDict String (List (Row E)))
    (scores : OrderedDict String F) (r : RequestMetrics F) : Prop where
  ranked : ∀ request ∈ requests, rankedRows n request.2 scores = request.2
  metrics : ∀ request ∈ requests, requestMetrics n request.2 scores = r

/-- Requests of a few rows with the same product metrics. -/
structure AlikeRows (n : Numerics F E) (requests : OrderedDict String (List (Row E))) (k : Nat)
    (diversity rate : F) : Prop where
  ne_nil : ∀ request ∈ requests, request.2 ≠ []
  length_le : ∀ request ∈ requests, request.2.length ≤ k
  diversity : ∀ request ∈ requests, embeddingDiversity n request.2 = diversity
  rate : ∀ request ∈ requests, strongNegativeRate n request.2 = rate

/-- The metrics of a model. -/
def alikeMetrics (n : Numerics F E) (r : RequestMetrics F) (diversity rate : F) (requests : Nat) :
    ModelMetrics F where
  mrr := n.round6 r.mrr
  ndcgAt5 := n.round6 r.ndcgAt5
  ndcgAt10 := n.round6 r.ndcgAt10
  impressionAuc := r.impressionAuc.map n.round6
  impressionAucEligibleRequests := if r.impressionAuc.isSome then requests else 0
  requests
  coverageAtK := n.round6 (n.ofRat 1)
  embeddingDiversityAtK := n.round6 diversity
  strongNegativeRateAtK := n.round6 rate

theorem map_eq_replicate {α β : Type} {l : List α} {f : α → β} {b : β} (h : ∀ a ∈ l, f a = b) :
    l.map f = List.replicate l.length b := by
  rw [List.map_congr_left h, List.map_const']

section Metrics

variable {requests : OrderedDict String (List (Row E))} {scores : OrderedDict String F}
  {r r' : RequestMetrics F} {k m : Nat} {diversity rate : F}

/-- **The metrics of a model**, of requests that are alike. -/
theorem Alike.aggregate (h : Alike n requests scores r) (hrows : AlikeRows n requests k diversity rate)
    (hmean : KeepsCopies n) (hlength : requests.length = m + 1) :
    aggregateModelMetrics n requests scores k = alikeMetrics n r diversity rate (m + 1) := by
  have hmetrics : (requests.map Prod.snd).map (fun rows => requestMetrics n rows scores)
      = List.replicate (m + 1) r := by
    rw [List.map_map, ← hlength]
    exact map_eq_replicate h.metrics
  -- every candidate is among the first
  have htops : (requests.map Prod.snd).map (fun rows => (rankedRows n rows scores).take k)
      = requests.map Prod.snd := by
    rw [List.map_map]
    refine List.map_congr_left fun request hrequest => ?_
    rw [Function.comp_apply, h.ranked request hrequest,
      List.take_of_length_le (hrows.length_le request hrequest)]
  have hdiversity : (requests.map Prod.snd).map (embeddingDiversity n)
      = List.replicate (m + 1) diversity := by
    rw [List.map_map, ← hlength]
    exact map_eq_replicate hrows.diversity
  have hrate : (requests.map Prod.snd).map (strongNegativeRate n) = List.replicate (m + 1) rate := by
    rw [List.map_map, ← hlength]
    exact map_eq_replicate hrows.rate
  have hcatalog : ((requests.map Prod.snd).flatten.map (·.candidateGroup)).toFinset.card ≠ 0 := by
    obtain ⟨request, rest, rfl⟩ := List.exists_cons_of_length_eq_add_one hlength
    obtain ⟨row, rows, hrow⟩ := List.exists_cons_of_ne_nil (hrows.ne_nil request (by simp))
    rw [← Nat.pos_iff_ne_zero, Finset.card_pos]
    exact ⟨row.candidateGroup, by simp [hrow]⟩
  unfold aggregateModelMetrics alikeMetrics
  dsimp only
  rw [hmetrics, htops, hdiversity, hrate, hmean.mean, hmean.mean, List.map_replicate, hmean.mean,
    List.map_replicate, hmean.mean, List.map_replicate, hmean.mean, List.length_replicate,
    if_neg hcatalog, div_self (Nat.cast_ne_zero.mpr hcatalog)]
  cases hauc : r.impressionAuc with
  | none =>
    -- no request has an AUC, or each has the same
    have hnone : (List.replicate (m + 1) r).filterMap (·.impressionAuc) = [] := by
      rw [List.filterMap_eq_nil_iff]
      intro a ha
      rw [List.eq_of_mem_replicate ha, hauc]
    rw [hnone]
    rfl
  | some auc =>
    have hsome : (List.replicate (m + 1) r).filterMap (·.impressionAuc)
        = List.replicate (m + 1) auc := by
      rw [List.filterMap_replicate_of_some hauc]
    rw [hsome, hmean, List.length_replicate]
    rfl

/-! ### Comparisons -/

/-- The interval of differences that are all the same. -/
theorem pairedBootstrapDeltaCi95_replicate (hmean : KeepsCopies n) (x : F) (m seed : Nat) :
    pairedBootstrapDeltaCi95 n x (List.replicate m x) seed = (n.round6 x, n.round6 x) := by
  cases m with
  | zero => rfl
  | succ m =>
    have hdraw : ∀ i, (x :: List.replicate (m + 1) x).get i = x := by
      intro i
      rcases List.mem_cons.mp (List.get_mem _ i) with hx | hx
      · exact hx
      · exact List.eq_of_mem_replicate hx
    have hgetD : ∀ (l : List F) (i : Nat), (∀ y ∈ l, y = x) → l.getD i x = x := by
      intro l i hl
      rw [List.getD_eq_getElem?_getD]
      cases hget : l[i]? with
      | none => rfl
      | some y => exact hl y (List.mem_of_getElem? hget)
    show (n.round6 (List.getD _ 25 x), n.round6 (List.getD _ 974 x)) = _
    have hmeans : ∀ y ∈ stableSort (compareDouble n) ((List.range resamples).map fun resample =>
        n.fmean <| (List.range ((List.replicate (m + 1) x).length + 1)).map fun i =>
          (x :: List.replicate (m + 1) x).get (n.choice seed (List.replicate (m + 1) x).length
            (resample * ((List.replicate (m + 1) x).length + 1) + i))), y = x := by
      intro y hy
      obtain ⟨resample, -, rfl⟩ := List.mem_map.mp (Lib.mem_stableSort.mp hy)
      rw [map_eq_replicate fun i _ => hdraw _, List.length_range]
      exact hmean _ x
    rw [hgetD _ 25 hmeans, hgetD _ 974 hmeans]

/-- The difference of a metric. -/
def alikeDelta (n : Numerics F E) (r r' : RequestMetrics F) (metric : Metric) : Option F :=
  match r.get metric, r'.get metric with
  | some a, some b => some (n.sub a b)
  | _, _ => none

/-- The comparison of two models. -/
def alikeComparison (n : Numerics F E) (r r' : RequestMetrics F) (requests : Nat) : Comparison F :=
  metrics.filterMap fun metric => (alikeDelta n r r' metric).map fun delta =>
    (metric, ⟨n.round6 delta, (n.round6 delta, n.round6 delta), requests⟩)

/-- **The comparison of two models**, of requests that are alike to both. -/
theorem Alike.comparison {baseline : OrderedDict String F} (h : Alike n requests scores r)
    (h' : Alike n requests baseline r') (hmean : KeepsCopies n) (hlength : requests.length = m + 1) :
    pairedRankingComparison n requests scores baseline = alikeComparison n r r' (m + 1) := by
  have hdeltas : ∀ metric, metricDeltas n
      ((stableSort (Lib.compareBy compare Prod.fst) requests).map Prod.snd) scores baseline metric
        = (alikeDelta n r r' metric).elim [] (List.replicate (m + 1)) := by
    intro metric
    -- the order of the requests does not matter
    have hconst : metricDeltas n ((stableSort (Lib.compareBy compare Prod.fst) requests).map Prod.snd)
        scores baseline metric
          = ((stableSort (Lib.compareBy compare Prod.fst) requests).map Prod.snd).filterMap
              fun _ => alikeDelta n r r' metric := by
      unfold metricDeltas
      refine List.filterMap_congr fun rows hrows => ?_
      obtain ⟨request, hmem, rfl⟩ := List.mem_map.mp hrows
      have hmem := Lib.mem_stableSort.mp hmem
      rw [← h.metrics request hmem, ← h'.metrics request hmem]
      unfold alikeDelta
      cases (requestMetrics n request.2 scores).get metric with
      | none => rfl
      | some a => cases (requestMetrics n request.2 baseline).get metric <;> rfl
    rw [hconst]
    cases alikeDelta n r r' metric with
    | none => simp
    | some delta =>
      show List.filterMap (some ∘ fun _ => delta) _ = _
      rw [List.filterMap_eq_map, List.map_const', List.length_map,
        Lib.length_stableSort, hlength]
      rfl
  unfold pairedRankingComparison alikeComparison
  dsimp only
  have hindex : Evaluation.metrics.filterMap (fun metric => (alikeDelta n r r' metric).map fun delta =>
      (metric, (⟨n.round6 delta, (n.round6 delta, n.round6 delta), m + 1⟩ : DeltaInterval F)))
      = Evaluation.metrics.zipIdx.filterMap fun entry => (alikeDelta n r r' entry.1).map fun delta =>
        (entry.1, ⟨n.round6 delta, (n.round6 delta, n.round6 delta), m + 1⟩) := rfl
  rw [hindex]
  refine List.filterMap_congr fun entry _ => ?_
  rw [hdeltas]
  cases alikeDelta n r r' entry.1 with
  | none => rfl
  | some delta =>
    show some (entry.1, (⟨mean n (List.replicate (m + 1) delta), pairedBootstrapDeltaCi95 n delta
      (List.replicate m delta) entry.2, (List.replicate m delta).length + 1⟩ : DeltaInterval F)) = _
    rw [hmean.mean, pairedBootstrapDeltaCi95_replicate hmean, List.length_replicate]
    rfl

/-! ### Segments -/

/-- **The segments** of requests with the same buckets: one bucket has them all. -/
theorem segmentReport_alike {keys : Segment → String} (hne : requests ≠ [])
    (hkeys : ∀ request ∈ requests, segmentBucketKeys request.2 = .ok keys)
    (baselines : List (String × OrderedDict String F)) :
    segmentReport n requests scores baselines
      = .ok (nrmsSegments.map fun segment => (segment, [(keys segment,
          { metrics := aggregateModelMetrics n requests scores 5
            comparisons := baselines.map fun (label, baseline) =>
              (label, pairedRankingComparison n requests scores baseline) })])) := by
  unfold segmentReport
  have hkeyed : requests.mapM (fun request => do return (request, ← segmentBucketKeys request.2))
      = Except.ok (requests.map fun request => (request, keys)) := by
    rw [Lib.mapM_eq_ok_iff, List.map_map]
    refine List.map_congr_left fun request hrequest => ?_
    rw [hkeys request hrequest]
    rfl
  rw [hkeyed]
  refine congrArg Except.ok (List.map_congr_left fun segment _ => ?_)
  have hbucket : ∀ request ∈ requests.map fun request => (request, keys),
      request.2 segment = keys segment := by
    intro request hrequest
    obtain ⟨_, -, rfl⟩ := List.mem_map.mp hrequest
    rfl
  unfold segmentBuckets
  rw [OrderedDict.groupBy_of_forall_eq _ (by simpa using hne) hbucket]
  have hselected : (requests.map fun request => (request, keys)).map Prod.fst = requests := by
    rw [List.map_map]
    exact List.map_id requests
  unfold bucketMetrics
  rw [List.map_singleton, Prod.map_apply, hselected]
  rfl

end Metrics

/-! ### The report -/

/-- **A report is made** of rows that name their feed, when the artifact scores the test rows and
    the segments and the verdict can be told. -/
theorem compareNrmsHoldout_of_parts {artifact : List (Row E) → Except Raised (List F)}
    {rows : List (Row E)} {values : List F} {models : Models F}
    {segments : OrderedDict Segment (OrderedDict String (SegmentMetrics F))} {promotion : Promotion}
    (hfeed : rows.any (·.feedSource.isNone) = false) (hsome : splitRows rows "test" ≠ [])
    (hartifact : artifact (splitRows rows "test") = .ok values)
    (hlength : values.length = (splitRows rows "test").length)
    (hmodels : models =
      { loggedPositionBaseline := aggregateModelMetrics n (testByRequest rows)
          (heuristicScores n (splitRows rows "test")) (defaultOptions n).k
        meanPoolLogisticBaseline := aggregateModelMetrics n (testByRequest rows)
          (logisticBaselineScores n (splitRows rows "train") (splitRows rows "test"))
          (defaultOptions n).k
        pureModel := aggregateModelMetrics n (testByRequest rows)
          (scoreRows (splitRows rows "test") values) (defaultOptions n).k
        postPolicy := aggregateModelMetrics n (testByRequest rows)
          (allPostPolicyScores n (testByRequest rows) (scoreRows (splitRows rows "test") values)
            (heuristicScores n (splitRows rows "test"))) (defaultOptions n).k })
    (hsegments : segmentReport n (testByRequest rows) (scoreRows (splitRows rows "test") values)
      [("logged_position", heuristicScores n (splitRows rows "test")),
        ("logistic", logisticBaselineScores n (splitRows rows "train") (splitRows rows "test"))]
      = .ok segments)
    (hpromotion : promotionOf n (defaultOptions n) (testByRequest rows).length models segments
      (pairedRankingComparison n (testByRequest rows) (scoreRows (splitRows rows "test") values)
        (heuristicScores n (splitRows rows "test"))) = .ok promotion) :
    compareNrmsHoldout n artifact (defaultOptions n) rows = .ok {
      requests := (testByRequest rows).length
      impressions := (splitRows rows "test").length
      aucEligibleRequests := models.pureModel.impressionAucEligibleRequests
      models
      pureVsLoggedPosition := pairedRankingComparison n (testByRequest rows)
        (scoreRows (splitRows rows "test") values) (heuristicScores n (splitRows rows "test"))
      pureVsLogistic := pairedRankingComparison n (testByRequest rows)
        (scoreRows (splitRows rows "test") values)
        (logisticBaselineScores n (splitRows rows "train") (splitRows rows "test"))
      segments
      promotion } := by
  subst hmodels
  have hempty : (splitRows rows "test").isEmpty = false := List.isEmpty_eq_false_iff.mpr hsome
  have hraise : ∀ text, raiseIf false text = .ok () := fun _ => rfl
  unfold compareNrmsHoldout validateV2SegmentContract
  dsimp only
  rw [hfeed, hempty, hartifact]
  show (do
    raiseIf (decide (values.length ≠ (splitRows rows "test").length)) _
    let segments ← segmentReport n (testByRequest rows) (scoreRows (splitRows rows "test") values)
      [("logged_position", heuristicScores n (splitRows rows "test")),
        ("logistic", logisticBaselineScores n (splitRows rows "train") (splitRows rows "test"))]
    _) = _
  rw [hsegments, decide_eq_false (not_not.mpr hlength), hraise]
  show (do
    let promotion ← promotionOf n (defaultOptions n) (testByRequest rows).length _ segments _
    _) = _
  rw [hpromotion]
  rfl

end Oecophylla.Evaluation
