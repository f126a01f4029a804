import Oecophylla.Recommendation.Candidates
import Oecophylla.Recommendation.ModelRanker
import Oecophylla.Recommendation.Relevance
import Oecophylla.Recommendation.Rerank

namespace Oecophylla.Recommendation.Serve

open Candidates (CandidatePost Query Reply gatherCandidates toCandidates)
open Feed (Post)
open Lib (OrderedDict stableSort)
open ModelRanker (Score RankFeatureSnapshot RankingDecision RankerRuntime Predictor PredictScores
  Raised Interrupted ModelScores heuristicModelVersion)
open Python (uuidText)
open Rerank (Uuid diversityRerank)
open Relevance (relevance)

/-!
# A page of recommendations — `recommend_feed` (`recommendation_api/app/main.py`)

The pool is gathered, scored by the heuristic, scored again by the model where there is one that is in
time, and reranked for diversity.

* `scoredItem`, `withContext` — the candidates with their snapshots, and with the records of the model;
* `decide` — the decision of the ranker, whichever way it is reached;
* `recommendFeed` — the page;
* `recommendFeed_serves` — the page is full, and has nothing but the candidates;
* `ModelRanks`, `FeedInterrupted` — the model has scored all candidates, and: it has raised what
  nobody catches;
* `recommendFeed_ranks` — in the first case the scores are the model's, in the second there is no page,
  and else the page is the heuristic's.

A finite double is a rational, and arithmetic is exact.  So is the bound on how far the rerank moves a
post: the doubles of the code keep it up to their rounding.

What is read beside the tables is in `Context`, as a request finds it in time.  The errors of the
database are left out, and so are the pool that is recorded for the telemetry and `generated_at`.
-/

/-! ### Snapshots -/

/-- The fields of a `RankFeatureSnapshot` that are passed on. -/
structure Rest where
  schemaVersion : String
  candidateContentHash : Option String := none
  candidateEncoderVersion : Option String := none
  retrievalRequestId : Option Uuid := none
  candidatePublishedAt : Int
  contentLanguage : String
  languageDetectorVersion : String
  declaredTopics : List String
  preferenceObservedAt : Int
  deriving DecidableEq

abbrev Snapshot := RankFeatureSnapshot Rest
abbrev Scored := ModelRanker.RecommendationItem Rest
abbrev Item := Rerank.RecommendationItem ℚ Snapshot

/-- `RANK_FEATURE_SCHEMA_VERSION`. -/
def rankFeatureSchemaVersion : String := "rank-features-v2"

/-- `LANGUAGE_DETECTOR_VERSION`. -/
def languageDetectorVersion : String := "unicode-script-heuristic-v1"

/-- What is used of `math`, of the floats and of `unicodedata`. -/
structure Runtime where
  exp : ℚ → ℚ
  ofFloat : Float → ℚ
  detectContentLanguage : String → String

/-- `Settings`, as far as the page depends on it. -/
structure Settings where
  seenCooldownDays : Nat
  halfLifeHours : ℚ
  feedCandidatePool : Nat

/-- Microseconds in an hour. -/
def hourMicros : ℚ := 3600000000

section Score

variable (rt : Runtime) (cfg : Settings)

/-- `freshness_decay(created_at, half_life_hours, observed_at=…)`. -/
def freshnessDecay (createdAt observedAt : Int) : ℚ :=
  let ageHours : ℚ := max 0 (((observedAt - createdAt : Int) : ℚ) / hourMicros)
  rt.exp (-ageHours / cfg.halfLifeHours)

/-- `heuristic_score`, with the default weights and `diversity_boost`. -/
def heuristicScore (userVec : OrderedDict String ℚ) (post : CandidatePost) (observedAt : Int) : ℚ :=
  0.5 * relevance userVec post.topics + 0.2 * freshnessDecay rt cfg post.createdAt observedAt
    + 0.1 * rt.ofFloat post.safetyScore - 0.2 * (1 - 1)

/-- `sorted(set(declared_topics))`. -/
def sortedTopics (declaredTopics : List String) : List String := stableSort compare declaredTopics.dedup

/-- `build_rank_feature_snapshot`. -/
def buildRankFeatureSnapshot (userVec : OrderedDict String ℚ) (post : CandidatePost)
    (declaredTopics : List String) (observedAt : Int) : Snapshot where
  topicRelevance := some (.real (relevance userVec post.topics))
  freshness := some (.real (freshnessDecay rt cfg post.createdAt observedAt))
  safetyScore := some (.real (rt.ofFloat post.safetyScore))
  candidateSource := post.source
  isFollowedAuthor := none
  authorAffinity := none
  heuristicScore := some (.real (heuristicScore rt cfg userVec post observedAt))
  mlScore := none
  other :=
    { schemaVersion := rankFeatureSchemaVersion
      candidatePublishedAt := post.createdAt
      contentLanguage := rt.detectContentLanguage post.content
      languageDetectorVersion := languageDetectorVersion
      declaredTopics := sortedTopics declaredTopics
      preferenceObservedAt := observedAt }

end Score

/-! ### The semantic search -/

/-- A search by the clicks of the user: its clock, and how near the features of a post are to them.
    No number stands for a post whose features are missing, invalid or of another content. -/
structure Search where
  now : Int
  observedAt : Int
  similarity : Post → Option Float

/-- The order of two floats that are numbers. -/
def compareFloat (x y : Float) : Ordering := if x < y then .lt else if y < x then .gt else .eq

/-- The key `(-c.retrieval_score, str(c.id))`. -/
def nearest (a b : CandidatePost) : Ordering :=
  (compareFloat (b.retrievalScore.getD 0) (a.retrievalScore.getD 0)).then
    (compare (uuidText a.id) (uuidText b.id))

/-- `ORDER BY p.created_at DESC, p.id`. -/
def newestFirst (a b : Post) : Ordering := (compare b.createdAt a.createdAt).then (compare a.id b.id)

/-- `candidates_semantic`, once there is a query vector. -/
def candidatesSemantic (cfg : Settings) (db : Candidates.Database) (userId : Uuid) (search : Search) :
    List CandidatePost :=
  let eligible := (stableSort newestFirst (db.joinActive (db.posts.filter fun p =>
    p.createdAt ≤ search.observedAt
      ∧ db.Allowed ⟨userId, cfg.seenCooldownDays, search.now⟩ p))).take 2000
  let found := eligible.flatMap fun p =>
    match search.similarity p with
    | none => []
    | some score => (toCandidates [p] "semantic").map fun c => { c with retrievalScore := some score }
  (stableSort nearest found).take (cfg.feedCandidatePool / 4)

/-! ### A request -/

/-- `RecommendFeedRequest`, as its fields bound it. -/
structure RecommendFeedRequest where
  limit : Nat
  candidatePool : Nat
  excludePostIds : List Uuid
  limitBounds : 1 ≤ limit ∧ limit ≤ 200
  candidatePoolBounds : 1 ≤ candidatePool ∧ candidatePool ≤ 1000
  excludeBound : excludePostIds.length ≤ 1000

/-- A record of `load_nrms_records`: what `recommend_feed` reads of it, and the rest. -/
structure NrmsRecord (C : Type) where
  contentHash : String
  encoderVersion : String
  rest : C
  deriving DecidableEq

/-- What a request finds beside the tables: the vector of the user, the semantic search (none when it
    is off, fails, is late or has no query), and what is loaded in time for the ranker. -/
structure Context (C : Type) where
  retrievalRequestId : Uuid
  userVec : OrderedDict String ℚ
  search : Option Search
  declaredTopics : List String
  observedAt : Int
  /-- `load_author_context`; empty where it failed. -/
  authorContext : OrderedDict Uuid (Bool × ℚ)
  /-- The record of a candidate; `none` where it is missing, which fails the batch. -/
  nrmsRecord : Option (CandidatePost → Option (NrmsRecord C))
  /-- The call of the ranker found it busy, or was given up. -/
  late : Bool

/-- `RecommendFeedResponse`. -/
structure RecommendFeedResponse where
  items : List Item
  modelVersion : String

section Serve

variable {C : Type} (rt : Runtime) (cfg : Settings) (db : Candidates.Database)
  (replies : Query → Reply) (userId : Uuid) (body : RecommendFeedRequest) (ctx : Context C)

/-- The arguments of `gather_candidates`. -/
def gatherRequest : Candidates.Request ℚ where
  userId := userId
  userVec := ctx.userVec
  poolSize := body.candidatePool
  seenCooldownDays := cfg.seenCooldownDays
  excludePostIds := body.excludePostIds
  semanticCandidates := (ctx.search.map (candidatesSemantic cfg db userId)).getD []

/-- `candidates`, after the exclusions. -/
def candidates : List CandidatePost :=
  (gatherCandidates db (gatherRequest cfg db userId body ctx) replies).filter fun c =>
    c.id ∉ body.excludePostIds

/-- The features of a candidate, with what is known of its author. -/
def features (post : CandidatePost) : Snapshot :=
  let snapshot := buildRankFeatureSnapshot rt cfg ctx.userVec post ctx.declaredTopics ctx.observedAt
  { snapshot with
    isFollowedAuthor := (ctx.authorContext.get post.authorId).map fun known => known.1
    authorAffinity := (ctx.authorContext.get post.authorId).map fun known => .real known.2
    other := { snapshot.other with retrievalRequestId := some ctx.retrievalRequestId } }

/-- One item of `scored`. -/
def scoredItem (post : CandidatePost) : Scored where
  postId := post.id
  score := .real (heuristicScore rt cfg ctx.userVec post ctx.observedAt)
  source := post.source
  reason := "score=" ++ post.source
  features := features rt cfg ctx post

/-- `load_nrms_records`, where the ranker requires a context: the records of all candidates. -/
def nrmsRecords (posts : List CandidatePost) : Option (List (NrmsRecord C)) :=
  ctx.nrmsRecord.bind fun record => posts.mapM record

/-- The copy of an item with the hash and the version of its record. -/
def withRecord (item : Scored) (record : NrmsRecord C) : Scored :=
  { item with
    features := { item.features with
      other := { item.features.other with
        candidateContentHash := some record.contentHash
        candidateEncoderVersion := some record.encoderVersion } } }

/-- `runtime.mode != "heuristic" and getattr(runtime.predictor, "requires_context", False)`. -/
def needsContext (runtime : RankerRuntime) : Bool :=
  runtime.mode ≠ .heuristic ∧ ∃ predictor ∈ runtime.predictor, predictor.requiresContext = true

/-- `scored` and `records`, as the ranker gets them; none where the context could not be loaded. -/
def withContext (runtime : RankerRuntime) (posts : List CandidatePost) :
    Option (List Scored × Option (List (NrmsRecord C))) :=
  let items := posts.map (scoredItem rt cfg ctx)
  if needsContext runtime then
    (nrmsRecords ctx posts).map fun records => (List.zipWith withRecord items records, some records)
  else some (items, none)

/-- `score_async`: a predictor that is busy or late leaves the answer to the heuristic. -/
def scoreAsync (runtime : RankerRuntime) (predictScores : PredictScores (NrmsRecord C)) (late : Bool)
    (items : List Scored) (records : Option (List (NrmsRecord C))) :
    Except Raised (RankingDecision Rest) :=
  if runtime.mode = .heuristic ∨ runtime.predictor = none then
    runtime.score predictScores items "personalized" none
  else if late then .ok (RankerRuntime.fallback items)
  else runtime.score predictScores items "personalized" records

/-- `decision`, for the candidates. -/
def decide (runtime : RankerRuntime) (predictScores : PredictScores (NrmsRecord C))
    (posts : List CandidatePost) : Except Raised (RankingDecision Rest) :=
  match withContext rt cfg ctx runtime posts with
  | none => .ok (RankerRuntime.fallback (posts.map (scoredItem rt cfg ctx)))
  | some (items, records) => scoreAsync runtime predictScores ctx.late items records

/-- `score`, as the rerank reads it. -/
def scoreValue : Score → ℚ
  | .real q => q
  | _ => 0

/-- An item of the decision, as the rerank reads it. -/
def toItem (item : Scored) : Item where
  postId := item.postId
  score := scoreValue item.score
  source := item.source
  reason := item.reason
  features := item.features

/-- `{str(c.id): c.primary_topic for c in candidates}`. -/
def primaryTopics (posts : List CandidatePost) : OrderedDict String (Option String) :=
  posts.foldl (fun d c => d.set (uuidText c.id) c.topics.head?) []

/-- `{str(c.id): str(c.author_id) for c in candidates}`. -/
def authorIds (posts : List CandidatePost) : OrderedDict String String :=
  posts.foldl (fun d c => d.set (uuidText c.id) (uuidText c.authorId)) []

/-- `top`, for a decision. -/
def top (posts : List CandidatePost) (decision : RankingDecision Rest) : List Item :=
  diversityRerank (primaryTopics posts) (authorIds posts) (decision.items.map toItem) body.limit

/-- `recommend_feed(user_id, body)`; what the ranker raises is raised. -/
def recommendFeed (runtime : RankerRuntime) (predictScores : PredictScores (NrmsRecord C)) :
    Except Raised RecommendFeedResponse :=
  let posts := candidates cfg db replies userId body ctx
  if posts.isEmpty then .ok ⟨[], heuristicModelVersion⟩
  else
    (decide rt cfg ctx runtime predictScores posts).map fun decision =>
      ⟨top body posts decision, decision.modelVersion⟩

end Serve

/-! ### The decision -/

/-- A snapshot without what the ranker adds to it. -/
def strip (s : Snapshot) : Snapshot :=
  { s with
    mlScore := none
    other := { s.other with candidateContentHash := none, candidateEncoderVersion := none } }

section Decision

variable {C : Type} (rt : Runtime) (cfg : Settings) (ctx : Context C)

/-- The item is that of the candidate. -/
structure Shows (post : CandidatePost) (item : Scored) : Prop where
  postId : item.postId = post.id
  source : item.source = post.source
  features : strip item.features = features rt cfg ctx post

/-- The item is as the heuristic has scored it. -/
structure ByHeuristic (post : CandidatePost) (item : Scored) : Prop extends Shows rt cfg ctx post item where
  score : item.score = .real (heuristicScore rt cfg ctx.userVec post ctx.observedAt)
  reason : item.reason = "score=" ++ post.source

/-- The item has the score, a probability, that the model has given to the post. -/
structure ByModel (modelVersion : String) (given : CandidatePost × Score) (item : Scored) : Prop
    extends Shows rt cfg ctx given.1 item where
  probability : given.2.IsProbability
  score : item.score = given.2
  mlScore : item.features.mlScore = some given.2
  reason : item.reason = "ml:" ++ modelVersion

variable {rt cfg ctx}

/-- The entries of a second list are worked into those of the first. -/
theorem forall₂_zipWith {α β γ δ : Type*} {R : α → β → Prop} {S : α → δ → Prop} {f : β → γ → δ}
    {l : List α} {items : List β} {extra : List γ} (h : List.Forall₂ R l items)
    (hlength : extra.length = items.length) (hf : ∀ a b x, x ∈ extra → R a b → S a (f b x)) :
    List.Forall₂ S l (List.zipWith f items extra) := by
  induction h generalizing extra with
  | nil => simp
  | @cons a b l items hab _ ih =>
    cases extra with
    | nil => cases hlength
    | cons x extra =>
      refine .cons (hf a b x List.mem_cons_self hab) (ih (Nat.succ.inj hlength) ?_)
      exact fun a b y hy => hf a b y (List.mem_cons_of_mem x hy)

theorem length_of_mapM {α β : Type} {f : α → Option β} {l : List α} {l' : List β}
    (h : l.mapM f = some l') : l'.length = l.length := by
  induction l generalizing l' with
  | nil =>
    obtain rfl : [] = l' := by simpa using h
    rfl
  | cons a l ih =>
    rw [List.mapM_cons] at h
    obtain ⟨b, -, h⟩ := Option.bind_eq_some_iff.mp h
    obtain ⟨rest, hrest, h⟩ := Option.bind_eq_some_iff.mp h
    obtain rfl := Option.some.inj h
    rw [List.length_cons, List.length_cons, ih hrest]

theorem byHeuristic_scoredItem (posts : List CandidatePost) :
    List.Forall₂ (ByHeuristic rt cfg ctx) posts (posts.map (scoredItem rt cfg ctx)) := by
  rw [List.forall₂_map_right_iff, List.forall₂_same]
  exact fun post _ => ⟨⟨rfl, rfl, rfl⟩, rfl, rfl⟩

/-- The hash and the version of a record change nothing that the heuristic says. -/
theorem ByHeuristic.withRecord {post : CandidatePost} {item : Scored} {record : NrmsRecord C}
    (h : ByHeuristic rt cfg ctx post item) : ByHeuristic rt cfg ctx post (withRecord item record) :=
  ⟨⟨h.postId, h.source, h.features⟩, h.score, h.reason⟩

/-- What the ranker gets has been scored by the heuristic. -/
theorem byHeuristic_withContext {runtime : RankerRuntime} {posts : List CandidatePost}
    {items : List Scored} {records : Option (List (NrmsRecord C))}
    (h : withContext rt cfg ctx runtime posts = some (items, records)) :
    List.Forall₂ (ByHeuristic rt cfg ctx) posts items := by
  unfold withContext at h
  dsimp only at h
  split at h
  · obtain ⟨found, hrecords, hpair⟩ := Option.map_eq_some_iff.mp h
    obtain ⟨rfl, -⟩ := Prod.mk.inj hpair
    refine forall₂_zipWith (byHeuristic_scoredItem posts) ?_ fun _ _ _ _ h => h.withRecord
    -- The context has one record for each candidate.
    obtain ⟨record, -, hmap⟩ := Option.bind_eq_some_iff.mp hrecords
    rw [List.length_map]
    exact length_of_mapM hmap
  · obtain ⟨rfl, -⟩ := Prod.mk.inj (Option.some.inj h)
    exact byHeuristic_scoredItem posts

/-- The model has scored the candidates: it is on and loaded, neither busy nor late, got the context
    that it needs, and returned a probability for each of them. -/
def ModelRanks (rt : Runtime) (cfg : Settings) (ctx : Context C) (runtime : RankerRuntime)
    (predictScores : PredictScores (NrmsRecord C)) (posts : List CandidatePost) (predictor : Predictor)
    (scores : List Score) : Prop :=
  posts ≠ [] ∧ runtime.mode = .ml ∧ ctx.late = false ∧ ∃ items records,
    withContext rt cfg ctx runtime posts = some (items, records)
      ∧ ModelScores runtime predictScores items "personalized" records predictor scores

/-- The predictor was asked in time, and has raised what is no `Exception`. -/
def FeedInterrupted (rt : Runtime) (cfg : Settings) (ctx : Context C) (runtime : RankerRuntime)
    (predictScores : PredictScores (NrmsRecord C)) (posts : List CandidatePost) : Prop :=
  posts ≠ [] ∧ ctx.late = false ∧ ∃ items records,
    withContext rt cfg ctx runtime posts = some (items, records)
      ∧ Interrupted runtime predictScores items "personalized" records

theorem ModelRanks.unique {runtime : RankerRuntime} {predictScores : PredictScores (NrmsRecord C)}
    {posts : List CandidatePost} {predictor predictor' : Predictor} {scores scores' : List Score}
    (h : ModelRanks rt cfg ctx runtime predictScores posts predictor scores)
    (h' : ModelRanks rt cfg ctx runtime predictScores posts predictor' scores') :
    predictor = predictor' ∧ scores = scores' := by
  obtain ⟨-, -, -, items, records, hcontext, hmodel⟩ := h
  obtain ⟨-, -, -, items', records', hcontext', hmodel'⟩ := h'
  obtain ⟨rfl, rfl⟩ := Prod.mk.inj (Option.some.inj (hcontext.symm.trans hcontext'))
  exact hmodel.unique hmodel'

theorem ModelRanks.not_interrupted {runtime : RankerRuntime}
    {predictScores : PredictScores (NrmsRecord C)} {posts : List CandidatePost} {predictor : Predictor}
    {scores : List Score} (h : ModelRanks rt cfg ctx runtime predictScores posts predictor scores) :
    ¬ FeedInterrupted rt cfg ctx runtime predictScores posts := by
  obtain ⟨-, -, -, items, records, hcontext, hmodel⟩ := h
  rintro ⟨-, -, items', records', hcontext', hinterrupted⟩
  obtain ⟨rfl, rfl⟩ := Prod.mk.inj (Option.some.inj (hcontext.symm.trans hcontext'))
  exact hmodel.not_interrupted hinterrupted

/-- The items with the scores that the model has given them. -/
theorem byModel_updated {runtime : RankerRuntime} {predictor : Predictor} {items : List Scored}
    {posts : List CandidatePost} {scores : List Score} (hml : runtime.mode = .ml)
    (hitems : List.Forall₂ (ByHeuristic rt cfg ctx) posts items)
    (hlength : scores.length = items.length) (hprobabilities : ∀ score ∈ scores, score.IsProbability) :
    List.Forall₂ (ByModel rt cfg ctx predictor.modelVersion) (posts.zip scores)
      (RankerRuntime.updated runtime.mode predictor items scores).items := by
  unfold RankerRuntime.updated
  dsimp only
  rw [hml]
  induction hitems generalizing scores with
  | nil => simp
  | @cons post item posts items hitem _ ih =>
    cases scores with
    | nil => cases hlength
    | cons score scores =>
      refine .cons ?_ (ih (Nat.succ.inj hlength) fun x hx =>
        hprobabilities x (List.mem_cons_of_mem score hx))
      exact ⟨⟨hitem.postId, hitem.source, hitem.features⟩, hprobabilities score List.mem_cons_self,
        rfl, rfl, rfl⟩

/-- Outside of `ml` the model's scores stay beside those of the heuristic. -/
theorem byHeuristic_updated {runtime : RankerRuntime} {predictor : Predictor} {items : List Scored}
    {posts : List CandidatePost} {scores : List Score} (hml : runtime.mode ≠ .ml)
    (hitems : List.Forall₂ (ByHeuristic rt cfg ctx) posts items)
    (hlength : scores.length = items.length) :
    List.Forall₂ (ByHeuristic rt cfg ctx) posts
      (RankerRuntime.updated runtime.mode predictor items scores).items := by
  refine forall₂_zipWith hitems hlength fun post item score _ hitem => ?_
  exact ⟨⟨hitem.postId, hitem.source, hitem.features⟩, (if_neg hml).trans hitem.score,
    (if_neg hml).trans hitem.reason⟩

/-- What the model has scored shows the candidates. -/
theorem shows_of_byModel {modelVersion : String} {posts : List CandidatePost} {scores : List Score}
    {items : List Scored} (hlength : scores.length = posts.length)
    (h : List.Forall₂ (ByModel rt cfg ctx modelVersion) (posts.zip scores) items) :
    List.Forall₂ (Shows rt cfg ctx) posts items := by
  have hposts : (posts.zip scores).map Prod.fst = posts := List.map_fst_zip hlength.ge
  rw [← hposts, List.forall₂_map_left_iff]
  exact h.imp fun _ _ h => h.toShows

/-- **The decision**: the model has scored all candidates, nobody has, for there is an exception, or
    all are as the heuristic has scored them. -/
theorem decide_cases (rt : Runtime) (cfg : Settings) (ctx : Context C) (runtime : RankerRuntime)
    (predictScores : PredictScores (NrmsRecord C)) {posts : List CandidatePost} (hposts : posts ≠ []) :
    (∃ predictor scores decision, ModelRanks rt cfg ctx runtime predictScores posts predictor scores
        ∧ decide rt cfg ctx runtime predictScores posts = .ok decision
        ∧ decision.modelVersion = predictor.modelVersion
        ∧ scores.length = posts.length
        ∧ List.Forall₂ (ByModel rt cfg ctx predictor.modelVersion) (posts.zip scores) decision.items)
      ∨ FeedInterrupted rt cfg ctx runtime predictScores posts
        ∧ decide rt cfg ctx runtime predictScores posts = .error .baseException
      ∨ (∀ predictor scores,
          ¬ ModelRanks rt cfg ctx runtime predictScores posts predictor scores)
        ∧ ¬ FeedInterrupted rt cfg ctx runtime predictScores posts
        ∧ ∃ decision, decide rt cfg ctx runtime predictScores posts = .ok decision
          ∧ List.Forall₂ (ByHeuristic rt cfg ctx) posts decision.items := by
  unfold decide
  cases hcontext : withContext rt cfg ctx runtime posts with
  | none =>
    refine .inr (.inr ⟨?_, ?_, _, rfl, byHeuristic_scoredItem posts⟩)
    · rintro predictor scores ⟨-, -, -, items, records, hsome, -⟩
      rw [hcontext] at hsome
      cases hsome
    · rintro ⟨-, -, items, records, hsome, -⟩
      rw [hcontext] at hsome
      cases hsome
  | some pair =>
    obtain ⟨items, records⟩ := pair
    have hitems := byHeuristic_withContext hcontext
    have hthose {items' : List Scored} {records' : Option (List (NrmsRecord C))}
        (h : withContext rt cfg ctx runtime posts = some (items', records')) :
        items = items' ∧ records = records' := Prod.mk.inj (Option.some.inj (hcontext.symm.trans h))
    dsimp only [scoreAsync]
    split
    · next hoff =>
      -- Without a predictor nobody is asked.
      obtain ⟨decision, hscore, hheuristic⟩ :=
        ModelRanker.heuristic_score hoff predictScores items "personalized" none
      refine .inr (.inr ⟨?_, ?_, decision, hscore, hheuristic.1 ▸ hitems⟩)
      · rintro predictor scores ⟨-, -, -, items', records', -, hon, hpredictor, -⟩
        rcases hoff with hoff | hoff
        · exact hon hoff
        · exact Option.some_ne_none predictor (hpredictor.symm.trans hoff)
      · rintro ⟨-, -, items', records', -, hon, predictor, hpredictor, -⟩
        rcases hoff with hoff | hoff
        · exact hon hoff
        · exact Option.some_ne_none predictor (hpredictor.symm.trans hoff)
    split
    · next hlate =>
      refine .inr (.inr ⟨?_, ?_, _, rfl, hitems⟩)
      · rintro predictor scores ⟨-, -, hearly, -⟩
        rw [hlate] at hearly
        cases hearly
      · rintro ⟨-, hearly, -⟩
        rw [hlate] at hearly
        cases hearly
    · next hlate =>
      have hearly : ctx.late = false := Bool.eq_false_iff.mpr hlate
      rcases ModelRanker.score_cases runtime predictScores items "personalized" records with
        ⟨predictor, scores, hmodel, hscore⟩ | ⟨hinterrupted, hscore⟩
        | ⟨hnone, hcalm, decision, hscore, hheuristic⟩
      · have hlength := hmodel.2.2.2.2.2.1
        have hprobabilities := hmodel.2.2.2.2.2.2
        by_cases hml : runtime.mode = .ml
        · refine .inl ⟨predictor, scores, _, ⟨hposts, hml, hearly, items, records, hcontext, hmodel⟩,
            hscore, if_pos hml, ?_, byModel_updated hml hitems hlength hprobabilities⟩
          rw [hlength, hitems.length_eq]
        · refine .inr (.inr ⟨?_, ?_, _, hscore, byHeuristic_updated hml hitems hlength⟩)
          · exact fun _ _ h => hml h.2.1
          · rintro ⟨-, -, items', records', hsome, hinterrupted⟩
            obtain ⟨rfl, rfl⟩ := hthose hsome
            exact hmodel.not_interrupted hinterrupted
      · exact .inr (.inl ⟨⟨hposts, hearly, items, records, hcontext, hinterrupted⟩, hscore⟩)
      · refine .inr (.inr ⟨?_, ?_, decision, hscore, hheuristic.1 ▸ hitems⟩)
        · rintro predictor scores ⟨-, -, -, items', records', hsome, hmodel⟩
          obtain ⟨rfl, rfl⟩ := hthose hsome
          exact hnone predictor scores hmodel
        · rintro ⟨-, -, items', records', hsome, hinterrupted⟩
          obtain ⟨rfl, rfl⟩ := hthose hsome
          exact hcalm hinterrupted

end Decision

/-! ### The page -/

section Page

variable {C : Type} {rt : Runtime} {cfg : Settings} {db : Candidates.Database}
  {replies : Query → Reply} {userId : Uuid} {body : RecommendFeedRequest} {ctx : Context C}
  {runtime : RankerRuntime} {predictScores : PredictScores (NrmsRecord C)}

/-- The viewer at the time of the last query. -/
def viewerAt (cfg : Settings) (replies : Query → Reply) (userId : Uuid) : Candidates.Viewer :=
  ⟨userId, cfg.seenCooldownDays, (replies .backfill).now⟩

/-- The search finds posts that may be served. -/
theorem eligible_of_semantic {search : Search} {c : CandidatePost}
    (hc : c ∈ candidatesSemantic cfg db userId search) (hnow : search.now ≤ (replies .backfill).now) :
    db.Eligible (viewerAt cfg replies userId) c.id := by
  unfold candidatesSemantic at hc
  dsimp only at hc
  obtain ⟨p, hp, hc⟩ := List.mem_flatMap.mp (Lib.mem_stableSort.mp (List.mem_of_mem_take hc))
  have hid : c.id = p.id := by
    split at hc
    · cases hc
    · obtain ⟨c', hc', rfl⟩ := List.mem_map.mp hc
      obtain rfl := List.mem_singleton.mp hc'
      rfl
  obtain ⟨hjoined, hactive⟩ :=
    Candidates.Database.mem_joinActive.mp (Lib.mem_stableSort.mp (List.mem_of_mem_take hp))
  obtain ⟨hpost, hallowed⟩ := List.mem_filter.mp hjoined
  exact ⟨p, hpost, hid.symm, (of_decide_eq_true hallowed).2.later hnow, hactive⟩

/-- The exclusions are made twice. -/
theorem candidates_eq (cfg : Settings) (db : Candidates.Database) (replies : Query → Reply)
    (userId : Uuid) (body : RecommendFeedRequest) (ctx : Context C)
    (hclock : ∀ query, (replies query).now ≤ (replies .backfill).now)
    (hsearch : ∀ search ∈ ctx.search, search.now ≤ (replies .backfill).now) :
    ((candidates cfg db replies userId body ctx).map CandidatePost.id).Nodup
      ∧ (∀ c ∈ candidates cfg db replies userId body ctx,
          db.Eligible (viewerAt cfg replies userId) c.id ∧ c.id ∉ body.excludePostIds)
      ∧ (candidates cfg db replies userId body ctx).length = min body.candidatePool
        (db.eligiblePosts (viewerAt cfg replies userId) body.excludePostIds).length := by
  have hsemantic : ∀ c ∈ (gatherRequest cfg db userId body ctx).semanticCandidates,
      db.Eligible (viewerAt cfg replies userId) c.id := by
    intro c hc
    have hsome : c ∈ (ctx.search.map (candidatesSemantic cfg db userId)).getD [] := hc
    cases hctx : ctx.search with
    | none =>
      rw [hctx] at hsome
      cases hsome
    | some search =>
      rw [hctx] at hsome
      exact eligible_of_semantic hsome (hsearch search hctx)
  have hfills := @Candidates.gatherCandidates_fills _ _ db (gatherRequest cfg db userId body ctx)
    replies body.candidatePoolBounds.1 hclock hsemantic
  have hsame : candidates cfg db replies userId body ctx
      = gatherCandidates db (gatherRequest cfg db userId body ctx) replies := by
    unfold candidates
    exact List.filter_eq_self.mpr fun c hc => decide_eq_true (hfills.2.1 c hc).2
  rw [hsame]
  exact hfills

/-- What all related entries agree on, the lists agree on. -/
theorem map_eq_of_forall₂ {α β γ : Type*} {R : α → β → Prop} {f : α → γ} {g : β → γ} {l : List α}
    {items : List β} (h : List.Forall₂ R l items) (hR : ∀ a b, R a b → g b = f a) :
    items.map g = l.map f := by
  induction h with
  | nil => rfl
  | cons hab _ ih => rw [List.map_cons, List.map_cons, ih, hR _ _ hab]

theorem exists_of_forall₂ {α β : Type*} {R : α → β → Prop} {l : List α} {items : List β}
    (h : List.Forall₂ R l items) {b : β} (hb : b ∈ items) : ∃ a ∈ l, R a b := by
  induction h with
  | nil => cases hb
  | @cons a c l items hac _ ih =>
    rcases List.mem_cons.mp hb with rfl | hb
    · exact ⟨a, List.mem_cons_self, hac⟩
    · obtain ⟨a', ha', hR⟩ := ih hb
      exact ⟨a', List.mem_cons_of_mem a ha', hR⟩

/-- Whoever scores them, the items are those of the candidates; a page without candidates is what the
    rerank makes of no items. -/
theorem exists_response
    (hcalm : ¬ FeedInterrupted rt cfg ctx runtime predictScores (candidates cfg db replies userId body ctx)) :
    ∃ response items, recommendFeed rt cfg db replies userId body ctx runtime predictScores = .ok response
      ∧ response.items = diversityRerank (primaryTopics (candidates cfg db replies userId body ctx))
        (authorIds (candidates cfg db replies userId body ctx)) (items.map toItem) body.limit
      ∧ List.Forall₂ (Shows rt cfg ctx) (candidates cfg db replies userId body ctx) items := by
  unfold recommendFeed
  dsimp only
  split
  · next hempty =>
    rw [List.isEmpty_iff.mp hempty]
    refine ⟨_, [], rfl, ?_, .nil⟩
    unfold diversityRerank Rerank.byScore
    rw [List.map_nil, Lib.stableSort_nil, Lib.greedy_nil]
  · next hposts =>
    have hne := mt List.isEmpty_iff.mpr hposts
    rcases decide_cases rt cfg ctx runtime predictScores hne with
      ⟨predictor, scores, decision, -, hdecide, -, hlength, hmodel⟩ | ⟨hinterrupted, -⟩
      | ⟨-, -, decision, hdecide, hheuristic⟩
    · exact ⟨_, decision.items, by rw [hdecide]; rfl, rfl, shows_of_byModel hlength hmodel⟩
    · exact absurd hinterrupted hcalm
    · exact ⟨_, decision.items, by rw [hdecide]; rfl, rfl, hheuristic.imp fun _ _ h => h.toShows⟩

theorem postIds_of_shows {posts : List CandidatePost} {items : List Scored}
    (h : List.Forall₂ (Shows rt cfg ctx) posts items) :
    (items.map toItem).map Rerank.RecommendationItem.postId = posts.map CandidatePost.id := by
  rw [List.map_map]
  exact map_eq_of_forall₂ h fun post item h => h.postId

/-- A request for two posts of the database of five, without the third one. -/
def twoOfFive : RecommendFeedRequest :=
  ⟨2, 8, [13], by decide, by decide, by decide⟩

/-- The answers to the queries, a year after the posts. -/
def yearLater (_ : Query) : Reply := ⟨⟨fun l => l, fun l => List.Perm.refl l⟩, 31536000000000⟩

/-- The search finds the last post; the model knows its author. -/
def knownAuthor : Context Unit where
  retrievalRequestId := 0
  userVec := [("ai", 1)]
  search := some ⟨31536000000000, 10, fun p => if p.id = 15 then some 0.5 else none⟩
  declaredTopics := []
  observedAt := 31536000000000
  authorContext := [(2, (true, 1 / 2))]
  nrmsRecord := none
  late := false

/-- What is used of the packages, at its simplest. -/
def plainRuntime : Runtime := ⟨fun _ => 1, fun _ => 1, fun _ => "und"⟩

/-- A model that goes by the place of a candidate. -/
def byPlace : PredictScores (NrmsRecord Unit) := fun records =>
  .ok (records.zipIdx.map fun record => .real (1 / (record.2 + 1)))

/-- No candidate is there twice, whatever the clocks of the queries say. -/
theorem nodup_candidates : ((candidates cfg db replies userId body ctx).map CandidatePost.id).Nodup := by
  have hsources : ((Candidates.gatherSources db (gatherRequest cfg db userId body ctx) replies).map
      CandidatePost.id).Nodup := by
    unfold Candidates.gatherSources
    dsimp only [List.foldl]
    open Candidates in
    exact nodup_merge (nodup_merge (nodup_merge (nodup_merge List.nodup_nil)))
  unfold candidates
  refine List.Nodup.sublist (List.filter_sublist.map _) ?_
  have hpool : 0 < (gatherRequest cfg db userId body ctx).poolSize := body.candidatePoolBounds.1
  rw [Candidates.gatherCandidates_eq hpool]
  exact (Candidates.nodup_merge hsources).sublist ((List.take_sublist _ _).map _)

/-- An item without what the ranker adds to its snapshot. -/
def stripItem (item : Item) : Item := { item with features := strip item.features }

theorem stripItem_of_byHeuristic {post : CandidatePost} {item : Scored}
    (h : ByHeuristic rt cfg ctx post item) : stripItem (toItem item) = toItem (scoredItem rt cfg ctx post) := by
  unfold stripItem toItem
  simp only [h.postId, h.score, h.source, h.reason, h.features]
  rfl

/-- The page of the heuristic alone. -/
def heuristicItems (rt : Runtime) (cfg : Settings) (ctx : Context C) (body : RecommendFeedRequest)
    (posts : List CandidatePost) : List Item :=
  diversityRerank (primaryTopics posts) (authorIds posts)
    ((posts.map (scoredItem rt cfg ctx)).map toItem) body.limit

theorem recommendFeed_heuristic :
    ∃ plain, recommendFeed rt cfg db replies userId body ctx ⟨.heuristic, none⟩ predictScores = .ok plain
      ∧ plain.items = heuristicItems rt cfg ctx body (candidates cfg db replies userId body ctx) := by
  unfold recommendFeed
  dsimp only
  split
  · next hempty =>
    rw [List.isEmpty_iff.mp hempty]
    refine ⟨_, rfl, ?_⟩
    unfold heuristicItems diversityRerank Rerank.byScore
    rw [List.map_nil, List.map_nil, Lib.stableSort_nil, Lib.greedy_nil]
  · exact ⟨_, rfl, rfl⟩

/-- Items as the heuristic has scored them make the page of the heuristic. -/
theorem top_of_byHeuristic {decision : RankingDecision Rest}
    (h : List.Forall₂ (ByHeuristic rt cfg ctx) (candidates cfg db replies userId body ctx) decision.items) :
    (top body (candidates cfg db replies userId body ctx) decision).map stripItem
      = heuristicItems rt cfg ctx body (candidates cfg db replies userId body ctx) := by
  set posts := candidates cfg db replies userId body ctx with hposts
  have hids := postIds_of_shows (h.imp fun _ _ h => h.toShows)
  have hstrip : (decision.items.map toItem).map stripItem
      = (posts.map (scoredItem rt cfg ctx)).map toItem := by
    rw [List.map_map, List.map_map]
    exact map_eq_of_forall₂ h fun post item h => stripItem_of_byHeuristic h
  -- The rerank does not look at what the ranker adds.
  unfold top heuristicItems
  rw [← hstrip]
  exact (@Rerank.diversityRerank_map ℚ Snapshot _ _ (primaryTopics posts) (authorIds posts) _ Snapshot
    _ stripItem (fun _ => rfl) (fun _ => rfl) _ (hids ▸ nodup_candidates) body.limit).symm

/-- **Who ranks.**  Where the model has scored all candidates, every score of the page is the one that it
    gave to the post, a probability, under its own version.  Where the predictor has raised what is no
    `Exception` there is no page.  Else, that is in shadow mode, without a predictor, with one that is
    busy or late, has no context, or fails, the page is the one of the heuristic: the same posts in the
    same order with the same scores. -/
theorem recommendFeed_ranks (rt : Runtime) (cfg : Settings) (db : Candidates.Database)
    (replies : Query → Reply) (userId : Uuid) (body : RecommendFeedRequest) (ctx : Context C)
    (runtime : RankerRuntime) (predictScores : PredictScores (NrmsRecord C)) :
    let posts := candidates cfg db replies userId body ctx
    let feed := recommendFeed rt cfg db replies userId body ctx runtime predictScores
    (∀ predictor scores, ModelRanks rt cfg ctx runtime predictScores posts predictor scores →
        ∃ response, feed = .ok response ∧ response.modelVersion = predictor.modelVersion
          ∧ ∀ item ∈ response.items, ∃ post, (post, Score.real item.score) ∈ posts.zip scores
            ∧ item.postId = post.id ∧ 0 ≤ item.score ∧ item.score ≤ 1
            ∧ item.features.mlScore = some (.real item.score)
            ∧ item.reason = "ml:" ++ predictor.modelVersion)
      ∧ (FeedInterrupted rt cfg ctx runtime predictScores posts → feed = .error .baseException)
      ∧ ((∀ predictor scores, ¬ ModelRanks rt cfg ctx runtime predictScores posts predictor scores) →
          ¬ FeedInterrupted rt cfg ctx runtime predictScores posts →
          ∃ response plain, feed = .ok response
            ∧ recommendFeed rt cfg db replies userId body ctx ⟨.heuristic, none⟩ predictScores = .ok plain
            ∧ response.items.map stripItem = plain.items) := by
  dsimp only
  set posts := candidates cfg db replies userId body ctx with hposts
  by_cases hempty : posts = []
  · refine ⟨fun _ _ h => absurd hempty h.1, fun h => absurd hempty h.1, fun _ _ => ?_⟩
    have hnone (runtime : RankerRuntime) :
        recommendFeed rt cfg db replies userId body ctx runtime predictScores
          = .ok ⟨[], heuristicModelVersion⟩ := by
      unfold recommendFeed
      rw [← hposts, hempty]
      rfl
    exact ⟨_, _, hnone runtime, hnone ⟨.heuristic, none⟩, rfl⟩
  have hfeed : recommendFeed rt cfg db replies userId body ctx runtime predictScores
      = (decide rt cfg ctx runtime predictScores posts).map fun decision =>
        ⟨top body posts decision, decision.modelVersion⟩ := by
    unfold recommendFeed
    rw [← hposts]
    exact if_neg fun h => hempty (List.isEmpty_iff.mp h)
  rw [hfeed]
  rcases decide_cases rt cfg ctx runtime predictScores hempty with
    ⟨predictor, scores, decision, hranks, hdecide, hversion, hlength, hmodel⟩ | ⟨hinterrupted, hdecide⟩
    | ⟨hnone, hcalm, decision, hdecide, hheuristic⟩
  · rw [hdecide]
    refine ⟨fun predictor' scores' hranks' => ?_, fun h => absurd h hranks.not_interrupted,
      fun hnone => absurd hranks (hnone predictor scores)⟩
    obtain ⟨rfl, rfl⟩ := hranks.unique hranks'
    refine ⟨_, rfl, hversion, fun item hitem => ?_⟩
    have hids := postIds_of_shows (shows_of_byModel hlength hmodel)
    obtain ⟨-, -, hmem, -⟩ := Rerank.diversityRerank_spec (primaryTopics posts) (authorIds posts)
      (decision.items.map toItem) (hids ▸ nodup_candidates) body.limit
    obtain ⟨scored, hscored, rfl⟩ := List.mem_map.mp (hmem item hitem)
    obtain ⟨⟨post, score⟩, hgiven, h⟩ := exists_of_forall₂ hmodel hscored
    obtain ⟨q, rfl⟩ := h.probability.exists_real
    have hvalue : (toItem scored).score = q := by
      unfold toItem
      rw [h.score]
      rfl
    rw [hvalue]
    exact ⟨post, hgiven, h.postId, h.probability.1, h.probability.2, h.mlScore, h.reason⟩
  · rw [hdecide]
    exact ⟨fun predictor scores h => absurd hinterrupted h.not_interrupted, fun _ => rfl,
      fun _ hcalm => absurd hinterrupted hcalm⟩
  · rw [hdecide]
    refine ⟨fun predictor scores h => absurd h (hnone predictor scores), fun h => absurd h hcalm,
      fun _ _ => ?_⟩
    obtain ⟨plain, hplain, hitems⟩ := @recommendFeed_heuristic C rt cfg db replies userId body ctx
      predictScores
    exact ⟨_, plain, rfl, hplain, (top_of_byHeuristic hheuristic).trans hitems.symm⟩

/-- The model ranks the page of two posts. -/
theorem recommendFeed_ranks_twoOfFive : ∃ response,
    recommendFeed plainRuntime ⟨7, 36, 300⟩ Candidates.fivePosts yearLater 1 twoOfFive knownAuthor
        ⟨.ml, some ⟨"m1", false⟩⟩ byPlace = .ok response ∧ response.modelVersion = "m1"
      ∧ ∀ item ∈ response.items, item.features.mlScore = some (.real item.score) := by
  obtain ⟨-, -, hcount⟩ := candidates_eq ⟨7, 36, 300⟩ Candidates.fivePosts yearLater 1 twoOfFive
    knownAuthor (fun _ => le_rfl) (fun search hsearch => by
      obtain rfl := Option.some.inj hsearch
      exact le_rfl)
  set posts := candidates ⟨7, 36, 300⟩ Candidates.fivePosts yearLater 1 twoOfFive knownAuthor with hposts
  have hthree : posts.length = 3 := hcount.trans (by decide)
  have hne : posts ≠ [] := fun h => by simp [h] at hthree
  have hranks : ModelRanks plainRuntime ⟨7, 36, 300⟩ knownAuthor ⟨.ml, some ⟨"m1", false⟩⟩ byPlace
      posts ⟨"m1", false⟩ (posts.zipIdx.map fun p => .real (1 / (p.2 + 1))) := by
    refine ⟨hne, rfl, rfl, posts.map (scoredItem plainRuntime ⟨7, 36, 300⟩ knownAuthor), none, rfl,
      by decide, rfl, nofun, ?_, ?_, ?_, fun score hscore => ?_⟩
    · simp [ModelRanker.recordsFor]
    · simp [byPlace, ModelRanker.recordsFor, List.zipIdx_map]
    · simp
    · obtain ⟨⟨post, place⟩, -, rfl⟩ := List.mem_map.mp hscore
      refine ⟨by positivity, ?_⟩
      rw [div_le_one (by positivity)]
      exact le_add_of_nonneg_left (Nat.cast_nonneg place)
  obtain ⟨hmodel, -⟩ := recommendFeed_ranks plainRuntime ⟨7, 36, 300⟩ Candidates.fivePosts yearLater 1
    twoOfFive knownAuthor ⟨.ml, some ⟨"m1", false⟩⟩ byPlace
  obtain ⟨response, hresponse, hversion, hitems⟩ := hmodel _ _ hranks
  exact ⟨response, hresponse, hversion, fun item hitem => (hitems item hitem).choose_spec.2.2.2.2.1⟩

end Page

end Oecophylla.Recommendation.Serve
