import Oecophylla.Python.Timestamp
import Oecophylla.Label.Python

namespace Oecophylla.Dataset

open Oecophylla.Python (Value Dict Timestamp)

/-!
# The records of the offline pipeline — `ai_pipeline/schemas.py`, `config.py`

* `Impression`, `BehaviorEvent`, `ArticleFeatureRecord` — what the builder reads;
* `HistorySnapshot`, `ArticleRepresentation`, `RankingDatasetRow`, `RankingBuildResult` — what it
  makes;
* `DatasetConfig` — the configuration, with what its constructor checks;
* `parseDatetime` — timestamps of a feature snapshot;
* `Runtime` — what the builder calls in the standard library: hashes, Unicode case, and the
  arithmetic of the doubles of an embedding, which are a parameter `F`.

Ids are 128-bit numbers.
-/

/-- What the builder raises: its own errors with their texts, and those of the functions it
    calls. -/
inductive Raised where
  | valueError (text : String)
  | typeError (text : String)
  | timestamp
  | overflow
  | label (raised : Label.Python.Raised)
  deriving DecidableEq, Repr

/-- What the builder calls in the standard library. -/
structure Runtime (F : Type) where
  /-- `hashlib.sha256(text.encode()).hexdigest()`. -/
  sha256 : String → String
  /-- `hmac.new(secret.encode(), text.encode(), hashlib.sha256).hexdigest()`. -/
  hmacSha256 : (secret text : String) → String
  /-- `s.lower()`. -/
  lower : String → String
  /-- `s.islower()`. -/
  islower : String → Bool
  /-- `math.isfinite(x)`. -/
  isfinite : F → Bool
  /-- `math.isclose(math.sqrt(sum(x * x for x in v)), 1.0, rel_tol=1e-5, abs_tol=1e-5)`. -/
  unitNorm : List F → Bool

/-- `s.strip()`. -/
def strip (s : String) : String := String.ofList (Oecophylla.Python.strip s.toList)

/-- `parse_datetime(value)`. -/
def parseDatetime : Value → Except Raised Timestamp
  | .datetime t =>
    if h : t.utcoffset.isSome then .ok ⟨t, h⟩
    else .error (.valueError "timestamp must include a timezone")
  | .str s =>
    match Oecophylla.Python.fromisoformat (Label.Python.replaceZ s) with
    | none => .error .timestamp
    | some t =>
      if h : t.utcoffset.isSome then .ok ⟨t, h⟩
      else .error (.valueError "timestamp must include a timezone")
  | _ => .error (.typeError "timestamp must be a datetime or ISO-8601 string")

/-! ### What the builder reads -/

/-- `Impression`. -/
structure Impression where
  id : Nat
  requestId : Nat
  userId : Nat
  postId : Nat
  position : Int
  feedSource : String
  modelVersion : String
  featureSnapshot : Dict
  servedAt : Timestamp

/-- `BehaviorEvent`. -/
structure BehaviorEvent where
  id : Nat
  impressionId : Option Nat
  userId : Nat
  postId : Nat
  eventType : String
  dwellMs : Option Int
  occurredAt : Timestamp
  ingestedAt : Option Timestamp
  eventVersion : Option String
  metadata : Option Dict

/-- `ArticleFeatureRecord`. -/
structure ArticleFeatureRecord (F : Type) where
  id : Nat
  postId : Nat
  encoderVersion : String
  contentHash : String
  embedding : List F
  sourceUpdatedAt : Timestamp
  computedAt : Timestamp

/-- An attribute that may be `None`. -/
def optional {α : Type} (f : α → Value) : Option α → Value
  | none => .none
  | some a => f a

/-- The attributes of an event, as the label resolver reads them. -/
def BehaviorEvent.record (e : BehaviorEvent) : Label.Python.Event :=
  .record [("id", .uuid e.id), ("impression_id", optional .uuid e.impressionId),
    ("user_id", .uuid e.userId), ("post_id", .uuid e.postId), ("event_type", .str e.eventType),
    ("dwell_ms", optional .int e.dwellMs), ("occurred_at", .datetime e.occurredAt.datetime),
    ("ingested_at", optional (fun t : Timestamp => .datetime t.datetime) e.ingestedAt),
    ("event_version", optional .str e.eventVersion), ("metadata", optional .dict e.metadata)]

/-- `==` on impressions. -/
def Impression.eq (a b : Impression) : Bool :=
  a.id == b.id && a.requestId == b.requestId && a.userId == b.userId && a.postId == b.postId
    && a.position == b.position && a.feedSource == b.feedSource && a.modelVersion == b.modelVersion
    && Oecophylla.Python.eq (.dict a.featureSnapshot) (.dict b.featureSnapshot)
    && a.servedAt == b.servedAt

/-- `==` on events. -/
def BehaviorEvent.eq (a b : BehaviorEvent) : Bool :=
  a.id == b.id && a.impressionId == b.impressionId && a.userId == b.userId && a.postId == b.postId
    && a.eventType == b.eventType && a.dwellMs == b.dwellMs && a.occurredAt == b.occurredAt
    && a.ingestedAt == b.ingestedAt && a.eventVersion == b.eventVersion
    && Oecophylla.Python.eq (optional .dict a.metadata) (optional .dict b.metadata)

/-- `==` on features. -/
def ArticleFeatureRecord.eq {F : Type} [BEq F] (a b : ArticleFeatureRecord F) : Bool :=
  a.id == b.id && a.postId == b.postId && a.encoderVersion == b.encoderVersion
    && a.contentHash == b.contentHash && a.embedding == b.embedding
    && a.sourceUpdatedAt == b.sourceUpdatedAt && a.computedAt == b.computedAt

/-! ### What the builder makes -/

/-- `HistoryEntry`. -/
structure HistoryEntry (F : Type) where
  eventId : Nat
  postId : Nat
  eventType : String
  engagedAt : Timestamp
  encoderVersion : String
  contentHash : String
  featureSourceUpdatedAt : Timestamp
  featureComputedAt : Timestamp
  embedding : List F

/-- `HistorySnapshot`. -/
structure HistorySnapshot (F : Type) where
  schemaVersion : String
  userId : Nat
  referenceAt : Timestamp
  entries : List (HistoryEntry F)

/-- `ArticleRepresentation`. -/
structure ArticleRepresentation (F : Type) where
  articleGroup : String
  representationType : String
  encoderVersion : Option String := none
  contentHash : Option String := none
  embedding : Option (List F) := none
  featureSourceUpdatedAt : Option Timestamp := none
  featureComputedAt : Option Timestamp := none
  category : Option String := none
  subcategory : Option String := none
  title : Option String := none
  abstract : Option String := none
  publishedAt : Option Timestamp := none
  language : Option String := none
  languageDetectorVersion : Option String := none
  deriving BEq

/-- `RankingHistoryEntry`. -/
structure RankingHistoryEntry (F : Type) where
  article : ArticleRepresentation F
  ordinal : Nat
  engagedAt : Option Timestamp
  provenance : String
  deriving BEq

/-- `SplitName`. -/
inductive SplitName where
  | train
  | validation
  | test
  deriving DecidableEq, Repr

/-- `RankingDatasetRow`. -/
structure RankingDatasetRow (F : Type) where
  sampleId : String
  requestGroup : String
  candidateGroup : String
  split : SplitName
  servedAt : Timestamp
  visibleAt : Timestamp
  position : Int
  served : Bool
  visible : Bool
  clickLabel : Int
  utilityLabel : Int
  utilityLabelName : Label.Semantic
  article : ArticleRepresentation F
  history : List (RankingHistoryEntry F)
  feedSource : String
  modelVersion : String
  sourceFormat : String
  datasetScope : String := "served-impression-reranking"
  auditRequestIdentity : String := ""
  declaredTopics : List String := []
  declaredTopicsObservedAt : Option Timestamp := none

/-- `BuildStats`. -/
structure BuildStats where
  impressionsRead : Nat
  eventsRead : Nat
  servedWithoutVisible : Nat
  immatureImpressions : Nat
  unsupportedFeatureSchema : Nat
  deriving DecidableEq, Repr

/-- `RankingBuildResult`. -/
structure RankingBuildResult (F : Type) where
  rows : List (RankingDatasetRow F)
  stats : BuildStats
  expectedEncoderVersion : Option String
  expectedEmbeddingDimension : Option Nat

/-! ### The configuration -/

/-- `IdentityMode`. -/
inductive IdentityMode where
  | hash
  | drop
  deriving DecidableEq, Repr

/-- `DatasetSchemaVersion`. -/
inductive DatasetSchemaVersion where
  | v1
  | v2
  deriving DecidableEq, Repr

/-- `DatasetConfig`, with the checks of `__post_init__` on the fields that the builder reads;
    fractions are the values of doubles. -/
structure DatasetConfig where
  start : Timestamp
  stop : Timestamp
  extractionTime : Timestamp
  labelWindowHours : Int
  qualifiedReadMs : Int
  recommendationLabelVersion : Label.Python.LabelVersion
  identityMode : IdentityMode
  hashSalt : Option String
  trainFraction : ℚ
  validationFraction : ℚ
  historyRecentLimit : Nat
  historyLongTermLimit : Nat
  datasetSchemaVersion : DatasetSchemaVersion
  encoderVersion : String
  encoderDimension : Nat
  start_before_end : start < stop
  extraction_not_before_start : start ≤ extractionTime
  window_positive : 0 < labelWindowHours
  qualified_read_positive : 0 < qualifiedReadMs
  salted : identityMode = .hash → hashSalt.getD "" ≠ ""
  train_inside : 0 < trainFraction ∧ trainFraction < 1
  validation_inside : 0 < validationFraction ∧ validationFraction < 1
  holdout : Oecophylla.Python.roundDouble (trainFraction + validationFraction) < 1
  v2_labelled : datasetSchemaVersion = .v2 → recommendationLabelVersion = .v2
  v2_hashed : datasetSchemaVersion = .v2 → identityMode = .hash
  dimension_positive : 0 < encoderDimension

/-- `PINNED_ENCODER_VERSION`. -/
def pinnedEncoderVersion : String :=
  "intfloat/multilingual-e5-small@614241f622f53c4eeff9890bdc4f31cfecc418b3"

/-- Reads of ten seconds, labels of a day, and three quarters of the requests for training. -/
def DatasetConfig.ofTimes (start stop extractionTime : Timestamp) (hstop : start < stop)
    (hextraction : start ≤ extractionTime) : DatasetConfig where
  start := start
  stop := stop
  extractionTime := extractionTime
  labelWindowHours := 24
  qualifiedReadMs := 10000
  recommendationLabelVersion := .v2
  identityMode := .hash
  hashSalt := some "s"
  trainFraction := 3 / 4
  validationFraction := 1 / 8
  historyRecentLimit := 20
  historyLongTermLimit := 30
  datasetSchemaVersion := .v2
  encoderVersion := pinnedEncoderVersion
  encoderDimension := 2
  start_before_end := hstop
  extraction_not_before_start := hextraction
  window_positive := by decide
  qualified_read_positive := by decide
  salted := by decide
  train_inside := by decide +kernel
  validation_inside := by decide +kernel
  holdout := by decide +kernel
  v2_labelled := fun _ => rfl
  v2_hashed := fun _ => rfl
  dimension_positive := Nat.two_pos

end Oecophylla.Dataset
