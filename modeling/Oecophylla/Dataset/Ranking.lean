import Oecophylla.Dataset.History
import Oecophylla.Dataset.Split
import Oecophylla.Dataset.Validate
import Oecophylla.Lib.OrderedDict

namespace Oecophylla.Dataset

open Lib (stableSort)
open Oecophylla.Python (Value Dict Timestamp uuidText str truthy)

/-!
# The builder of the ranking dataset — `build_ranking_samples_v2`

* `validateRequestEnvelopes` — impressions of one request agree, and have distinct positions;
* `rankingLabel`, `candidateArticle`, `rankingHistory`, `rankingRow` — the parts of a row;
* `rankingOutcome` — one round of the loop over the impressions;
* `buildRankingSamplesV2` — the builder.
-/

variable {F : Type}

/-! ### Identities -/

/-- `_hash_identity(value, salt)`. -/
def hashIdentity (rt : Runtime F) (value : Nat) (salt : String) : String :=
  rt.sha256 (salt ++ ":" ++ uuidText value)

/-- `_canonical_request_identity(impression)`. -/
def canonicalRequestIdentity (i : Impression) : String :=
  uuidText i.userId ++ ":" ++ uuidText i.requestId

/-- `_hmac_request_identity(impression, secret)`. -/
def hmacRequestIdentity (rt : Runtime F) (i : Impression) (secret : String) : String :=
  rt.hmacSha256 secret (canonicalRequestIdentity i)

/-- What `_validate_request_envelopes` has seen. -/
structure Envelopes where
  envelopes : Lib.OrderedDict String (Int × String × String)
  positions : List (String × Int)
  posts : List (String × Nat)

/-- One round of `_validate_request_envelopes`. -/
def Envelopes.add (seen : Envelopes) (i : Impression) : Except Raised Envelopes :=
  let identity := canonicalRequestIdentity i
  let envelope := (i.servedAt.micros, i.feedSource, i.modelVersion)
  let existing := (seen.envelopes.get identity).getD envelope
  if existing ≠ envelope then .error (.valueError "conflicting canonical request identity")
  else if (identity, i.position) ∈ seen.positions ∨ (identity, i.postId) ∈ seen.posts then
    .error (.valueError "conflicting canonical request identity")
  else .ok {
    envelopes := seen.envelopes.set identity existing
    positions := (identity, i.position) :: seen.positions
    posts := (identity, i.postId) :: seen.posts }

/-- `_validate_request_envelopes(impressions)`. -/
def validateRequestEnvelopes (impressions : List Impression) : Except Raised Envelopes :=
  impressions.foldlM Envelopes.add ⟨[], [], []⟩

/-- The place of an impression in its request. -/
def requestPosition (i : Impression) : String × Int := (canonicalRequestIdentity i, i.position)

/-- An impression is accepted at a place that is free, and takes it. -/
theorem Envelopes.add_eq_ok {seen seen' : Envelopes} {i : Impression} (h : seen.add i = .ok seen') :
    requestPosition i ∉ seen.positions ∧ seen'.positions = requestPosition i :: seen.positions := by
  unfold Envelopes.add at h
  dsimp only at h
  split_ifs at h with henvelope htaken
  rw [← Except.ok.inj h]
  exact ⟨fun hmem => htaken (.inl hmem), rfl⟩

private theorem nodup_of_foldlM {impressions : List Impression} {seen seen' : Envelopes}
    (h : impressions.foldlM Envelopes.add seen = .ok seen') :
    (impressions.map requestPosition).Nodup
      ∧ ∀ i ∈ impressions, requestPosition i ∉ seen.positions := by
  induction impressions generalizing seen with
  | nil => simp
  | cons i impressions ih =>
    rw [List.foldlM_cons, Lib.except_bind_eq_ok] at h
    obtain ⟨mid, hadd, hrest⟩ := h
    obtain ⟨hfree, hpositions⟩ := Envelopes.add_eq_ok hadd
    obtain ⟨hnodup, hnew⟩ := ih hrest
    rw [hpositions] at hnew
    constructor
    · rw [List.map_cons, List.nodup_cons]
      refine ⟨?_, hnodup⟩
      intro hmem
      obtain ⟨j, hj, heq⟩ := List.mem_map.mp hmem
      apply hnew j hj
      rw [heq]
      exact List.mem_cons_self
    · intro j hj
      rcases List.mem_cons.mp hj with rfl | hj
      · exact hfree
      · exact fun hmem => hnew j hj (List.mem_cons_of_mem _ hmem)

/-- **Requests.**  Accepted impressions have places of their own. -/
theorem nodup_requestPositions {impressions : List Impression} {seen : Envelopes}
    (h : validateRequestEnvelopes impressions = .ok seen) :
    (impressions.map requestPosition).Nodup :=
  (nodup_of_foldlM h).1

/-! ### The feature snapshot -/

/-- `_optional_snapshot_datetime(snapshot, field)`. -/
def optionalSnapshotDatetime (snapshot : Dict) (field : String) : Except Raised (Option Timestamp) :=
  match (snapshot.get field).getD .none with
  | .none => .ok none
  | v => (parseDatetime v).map some

/-- `_snapshot_declared_topics(snapshot)`. -/
def snapshotDeclaredTopics (rt : Runtime F) (snapshot : Dict) : Except Raised (List String) :=
  let values := (snapshot.get "declared_topics").getD .none
  if truthy values = false then .ok []
  else
    match values with
    | .list items =>
      let topics := (items.filter fun v => strip (str v) ≠ "").map fun v => rt.lower (strip (str v))
      .ok (stableSort compare topics.eraseDups)
    | _ => .error (.typeError "declared_topics must be a sequence of strings")

/-- `value == text`. -/
def isText (value : Option Value) (text : String) : Bool :=
  match value with
  | some (.str s) => s == text
  | _ => false

/-- `names.issubset(snapshot)`. -/
def hasNames (snapshot : Dict) (names : List String) : Bool :=
  names.all fun name => (snapshot.get name).isSome

/-- `REQUIRED_FEATURES`. -/
def requiredFeatures : List String :=
  ["schema_version", "topic_relevance", "freshness", "safety_score", "candidate_source",
    "is_followed_author", "author_affinity", "heuristic_score", "ml_score"]

/-- `_validate_snapshot(snapshot)`. -/
def validateSnapshot (snapshot : Dict) : Bool :=
  let version := snapshot.get "schema_version"
  if isText version "rank-features-v2" && !hasNames snapshot ["candidate_published_at",
      "content_language", "language_detector_version", "declared_topics",
      "preference_observed_at"] then false
  else
    (isText version "rank-features-v1" || isText version "rank-features-v2")
      && hasNames snapshot requiredFeatures
      && match snapshot.get "candidate_source" with
        | some (.str source) => strip source != ""
        | _ => false

/-! ### The parts of a row -/

/-- `_verified_exposure_at(impression, linked_events)`. -/
def verifiedExposureAt (i : Impression) (linkedEvents : List BehaviorEvent) : Option Timestamp :=
  Lib.firstLeast (fun a b => compare a.micros b.micros) ((linkedEvents.filter fun e =>
    (e.eventType = "visible" ∨ e.eventType = "click") ∧ i.servedAt ≤ e.occurredAt).map
      BehaviorEvent.occurredAt)

/-- `linked_events`: what was ingested in time for the impression, its user and its post. -/
def linkedEvents (config : DatasetConfig) (events : List BehaviorEvent) (i : Impression) :
    List BehaviorEvent :=
  (events.filter fun e => e.impressionId = some i.id ∧ IngestedBy config.extractionTime e).filter
    fun e => e.userId = i.userId ∧ e.postId = i.postId

/-- The label of an impression. -/
structure RankingLabel where
  clickLabel : Int
  utilityLabel : Int
  utilityLabelName : Label.Semantic
  deriving DecidableEq, Repr

/-- The label of the events in the window. -/
def rankingLabel (config : DatasetConfig) (i : Impression) (linked : List BehaviorEvent)
    (labelWindowEnd : Int) : Except Raised RankingLabel := do
  let labelEvents := linked.filter fun e =>
    i.servedAt ≤ e.occurredAt ∧ e.occurredAt.micros ≤ labelWindowEnd
  let persistedVersions ← labelEvents.mapM eventLabelVersion
  raiseIf (persistedVersions = [] ∨ ∃ version ∈ persistedVersions, version ≠ .v2)
    "recommendation dataset v2 requires only persisted label v2 events"
  let label ← (Label.Python.deriveLabel (labelEvents.map BehaviorEvent.record) .v2
    config.qualifiedReadMs true [] false).mapError .label
  match label.trainingTarget with
  | none => .error (.valueError "recommendation dataset v2 requires finalized utility labels")
  | some target => pure {
      clickLabel := if ∃ e ∈ labelEvents, e.eventType = "click" then 1 else 0
      utilityLabel := target
      utilityLabelName := label.semantic }

/-- `reference_at`. -/
def referenceAt (i : Impression) : Except Raised Timestamp := do
  let observed ← optionalSnapshotDatetime i.featureSnapshot "preference_observed_at"
  pure (observed.getD i.servedAt)

/-- Whether a feature is a candidate: of the post, and of the revision that was served when the
    snapshot names it. -/
def isCandidate (i : Impression) (f : ArticleFeatureRecord F) : Bool :=
  f.postId == i.postId &&
    match (i.featureSnapshot.get "candidate_content_hash").getD .none with
    | .none => true
    | hash => Oecophylla.Python.eq (.str f.contentHash) hash
      && Oecophylla.Python.eq (.str f.encoderVersion)
        ((i.featureSnapshot.get "candidate_encoder_version").getD .none)

/-- `_article_representation_from_feature(feature, salt, …)`. -/
def articleRepresentationFromFeature (rt : Runtime F) (f : ArticleFeatureRecord F) (salt : String)
    (publishedAt : Option Timestamp) (language languageDetectorVersion : Option String) :
    ArticleRepresentation F where
  articleGroup := hashIdentity rt f.postId salt
  representationType := "post-content-embedding-v1"
  encoderVersion := some f.encoderVersion
  contentHash := some f.contentHash
  embedding := some f.embedding
  featureSourceUpdatedAt := some f.sourceUpdatedAt
  featureComputedAt := some f.computedAt
  publishedAt := publishedAt
  language := language
  languageDetectorVersion := languageDetectorVersion

/-- `f(str(value)) if value else None`, on a field of the snapshot. -/
def snapshotText (snapshot : Dict) (field : String) (f : String → String) : Option String :=
  let value := (snapshot.get field).getD .none
  if truthy value then some (f (str value)) else none

/-- The article of the candidate. -/
def candidateArticle (rt : Runtime F) (salt : String) (features : List (ArticleFeatureRecord F))
    (i : Impression) (reference : Timestamp) : Except Raised (ArticleRepresentation F) := do
  let snapshot := i.featureSnapshot
  let feature := selectHistoryFeature (features.filter (isCandidate i)) reference
  let publishedAt ← optionalSnapshotDatetime snapshot "candidate_published_at"
  let language := snapshotText snapshot "content_language" fun s => rt.lower (strip s)
  let detector := snapshotText snapshot "language_detector_version" strip
  match feature with
  | some f => pure (articleRepresentationFromFeature rt f salt publishedAt language detector)
  | none => pure {
      articleGroup := hashIdentity rt i.postId salt
      representationType := "post-content-embedding-v1"
      publishedAt := publishedAt
      language := language
      languageDetectorVersion := detector }

/-- The history of a row, from the entries of the snapshot. -/
def rankingHistory (rt : Runtime F) (salt : String) (entries : List (HistoryEntry F)) :
    List (RankingHistoryEntry F) :=
  entries.mapIdx fun index entry => {
    article := articleRepresentationFromFeature rt {
      id := entry.eventId
      postId := entry.postId
      encoderVersion := entry.encoderVersion
      contentHash := entry.contentHash
      embedding := entry.embedding
      sourceUpdatedAt := entry.featureSourceUpdatedAt
      computedAt := entry.featureComputedAt } salt none none none
    ordinal := index
    engagedAt := some entry.engagedAt
    provenance := "oecophylla-click-v2" }

/-- `config.hash_salt or ""`. -/
def DatasetConfig.salt (config : DatasetConfig) : String := config.hashSalt.getD ""

/-- The row of an impression that has a label. -/
def rankingRow [BEq F] (rt : Runtime F) (config : DatasetConfig) (events : List BehaviorEvent)
    (features : List (ArticleFeatureRecord F)) (i : Impression) (visibleAt : Timestamp)
    (label : RankingLabel) : Except Raised (RankingDatasetRow F) := do
  let salt := config.salt
  let reference ← referenceAt i
  raiseIf (i.servedAt < reference) "serving context must not be from the future"
  let article ← candidateArticle rt salt features i reference
  let declaredTopics ← snapshotDeclaredTopics rt i.featureSnapshot
  let declaredTopicsObservedAt ← optionalSnapshotDatetime i.featureSnapshot "preference_observed_at"
  let snapshot ← buildHistorySnapshot i.userId reference events features config
  pure {
    sampleId := hashIdentity rt i.id salt
    requestGroup := hmacRequestIdentity rt i salt
    candidateGroup := hashIdentity rt i.postId salt
    split := .train
    servedAt := i.servedAt
    visibleAt := visibleAt
    position := i.position
    served := true
    visible := true
    clickLabel := label.clickLabel
    utilityLabel := label.utilityLabel
    utilityLabelName := label.utilityLabelName
    article := article
    history := rankingHistory rt salt snapshot.entries
    feedSource := i.feedSource
    modelVersion := i.modelVersion
    sourceFormat := "oecophylla-telemetry-v2"
    auditRequestIdentity := canonicalRequestIdentity i
    declaredTopics := declaredTopics
    declaredTopicsObservedAt := declaredTopicsObservedAt }

/-! ### The builder -/

/-- What a round of the loop does with an impression. -/
inductive Outcome (F : Type) where
  | servedWithoutVisible
  | immature
  | unsupportedFeatureSchema
  | row (row : RankingDatasetRow F)

/-- The row of a round. -/
def Outcome.toRow : Outcome F → Option (RankingDatasetRow F)
  | .row r => some r
  | _ => none

/-- Microseconds in an hour. -/
def hourMicros : Int := 3600000000

/-- One round of the loop. -/
def rankingOutcome [BEq F] (rt : Runtime F) (config : DatasetConfig) (events : List BehaviorEvent)
    (features : List (ArticleFeatureRecord F)) (i : Impression) : Except Raised (Outcome F) :=
  let linked := linkedEvents config events i
  match verifiedExposureAt i linked with
  | none => .ok .servedWithoutVisible
  | some visibleAt =>
    match visibleAt.plus (config.labelWindowHours * hourMicros) with
    | none => .error .overflow
    | some labelWindowEnd =>
      if config.extractionTime.micros < labelWindowEnd then .ok .immature
      else if validateSnapshot i.featureSnapshot = false then .ok .unsupportedFeatureSchema
      else do
        let label ← rankingLabel config i linked labelWindowEnd
        let row ← rankingRow rt config events features i visibleAt label
        pure (.row row)

/-- The order of the impressions. -/
def compareServed (a b : Impression) : Ordering :=
  (compare a.servedAt.micros b.servedAt.micros).then
    ((compare a.position b.position).then (compare a.id b.id))

/-- The impressions of the query window. -/
def windowImpressions (config : DatasetConfig) (impressions : List Impression) : List Impression :=
  impressions.filter fun i => config.start ≤ i.servedAt ∧ i.servedAt < config.stop

/-- What the loop over the impressions builds. -/
def buildResult (config : DatasetConfig) (impressions : List Impression)
    (events : List BehaviorEvent) (outcomes : List (Outcome F)) : RankingBuildResult F where
  rows := splitRankingRows (outcomes.filterMap Outcome.toRow) config.trainFraction
    config.validationFraction
  stats := {
    impressionsRead := impressions.length
    eventsRead := events.length
    servedWithoutVisible := outcomes.countP fun | .servedWithoutVisible => true | _ => false
    immatureImpressions := outcomes.countP fun | .immature => true | _ => false
    unsupportedFeatureSchema := outcomes.countP fun
      | .unsupportedFeatureSchema => true
      | _ => false }
  expectedEncoderVersion := some config.encoderVersion
  expectedEmbeddingDimension := some config.encoderDimension

/-- `build_ranking_samples_v2(impressions, events, article_features, config)`. -/
def buildRankingSamplesV2 [BEq F] (rt : Runtime F) (impressions : List Impression)
    (events : List BehaviorEvent) (articleFeatures : List (ArticleFeatureRecord F))
    (config : DatasetConfig) : Except Raised (RankingBuildResult F) := do
  raiseIf (config.datasetSchemaVersion ≠ .v2) "build_ranking_samples_v2 requires dataset schema v2"
  let uniqueImpressions ← deduplicate Impression.id Impression.eq impressions
  let uniqueEvents ← deduplicate BehaviorEvent.id BehaviorEvent.eq events
  let uniqueFeatures ← deduplicate ArticleFeatureRecord.id ArticleFeatureRecord.eq articleFeatures
  let window := windowImpressions config uniqueImpressions
  let _ ← validateRequestEnvelopes window
  -- `timedelta(hours=config.label_window_hours)` has at most 999999999 days
  if 999999999 < config.labelWindowHours / 24 then .error .overflow
  else
    let outcomes ← (stableSort compareServed window).mapM
      (rankingOutcome rt config uniqueEvents uniqueFeatures)
    let result := buildResult config impressions events outcomes
    let _ ← validateDatasetV2 rt result
    pure result

end Oecophylla.Dataset
