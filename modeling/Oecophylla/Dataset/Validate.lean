import Oecophylla.Dataset.Schemas

namespace Oecophylla.Dataset

open Lib (stableSort)
open Oecophylla.Python (Value Dict Timestamp intOfText)

/-!
# The validation of the ranking dataset — `validate_dataset_v2`

* `validateArticleRepresentation` — the candidate and the articles of the history;
* `validateRow`, `validateRequest` — one row, and the rows of one request;
* `validateDatasetV2` — all rows, their requests and splits.

Timestamps include a timezone by their type, so that the checks of `tzinfo` are not repeated.
-/

variable {F : Type} (rt : Runtime F)

/-- `if bad: raise ValueError(text)`. -/
def raiseIf (bad : Prop) [Decidable bad] (text : String) : Except Raised Unit :=
  if bad then .error (.valueError text) else .ok ()

/-- `_is_private_hash(value)`. -/
def IsPrivateHash (value : String) : Prop :=
  value.length = 64 ∧ value = rt.lower value ∧ (intOfText 16 value).isSome

instance (value : String) : Decidable (IsPrivateHash rt value) :=
  inferInstanceAs (Decidable (_ ∧ _))

/-- `not text`, on an optional text. -/
def Falsy (text : Option String) : Prop := text.getD "" = ""

instance (text : Option String) : Decidable (Falsy text) := inferInstanceAs (Decidable (_ = _))

/-! ### Articles -/

/-- The checks of a `post-content-embedding-v1` article. -/
def validateEmbeddedArticle (article : ArticleRepresentation F)
    (expectedEncoderVersion : Option String) (expectedEmbeddingDimension : Option Nat)
    (availableAt : Option Timestamp) : Except Raised Unit := do
  let some embedding := article.embedding
    | .error (.valueError "missing article representation")
  raiseIf (embedding = [] ∨ ∃ value ∈ embedding, rt.isfinite value = false)
    "invalid article embedding"
  raiseIf (Falsy article.encoderVersion ∨ Falsy article.contentHash)
    "missing article representation provenance"
  match article.featureSourceUpdatedAt, article.featureComputedAt with
  | some source, some computed =>
    raiseIf (computed < source) "article feature source timestamp exceeds computation time"
    raiseIf (∃ available ∈ availableAt, available < source ∨ available < computed)
      "article feature revision must not be from the future"
  | _, _ => .error (.valueError "missing article feature revision timestamps")
  raiseIf (¬ IsPrivateHash rt (article.contentHash.getD ""))
    "article content_hash must be 64 lowercase hexadecimal characters"
  raiseIf (expectedEncoderVersion ≠ none ∧ article.encoderVersion ≠ expectedEncoderVersion)
    "article encoder version does not match dataset metadata"
  raiseIf (∃ dimension ∈ expectedEmbeddingDimension, embedding.length ≠ dimension)
    "article embedding dimension does not match dataset metadata"
  raiseIf (rt.unitNorm embedding = false) "article embedding must be finite and L2-normalized"

/-- The checks of a `mind-text-v1` article. -/
def validateTextArticle (article : ArticleRepresentation F) : Except Raised Unit := do
  raiseIf (strip (article.title.getD "") = "" ∧ strip (article.abstract.getD "") = "")
    "missing article representation"
  raiseIf article.embedding.isSome "MIND text representation must not contain an unpinned embedding"
  raiseIf (∀ hash ∈ article.contentHash, ¬ IsPrivateHash rt hash)
    "MIND text representation requires a versioned content hash"
  raiseIf (article.featureSourceUpdatedAt.isSome ∨ article.featureComputedAt.isSome)
    "MIND text representation must not fabricate feature timestamps"

/-- `_validate_article_representation(article, …)`. -/
def validateArticleRepresentation (article : ArticleRepresentation F)
    (expectedEncoderVersion : Option String) (expectedEmbeddingDimension : Option Nat)
    (availableAt : Option Timestamp) : Except Raised Unit := do
  raiseIf (∃ published ∈ article.publishedAt, ∃ available ∈ availableAt, available < published)
    "article published_at must not be after availability"
  match article.language with
  | none =>
    raiseIf article.languageDetectorVersion.isSome
      "article language detector requires a language value"
  | some language =>
    raiseIf (rt.islower language = false ∨ ¬ (2 ≤ language.length ∧ language.length ≤ 16))
      "article language must be a canonical lowercase code"
    raiseIf (Falsy article.languageDetectorVersion) "article language requires detector provenance"
  if article.representationType = "post-content-embedding-v1" then
    validateEmbeddedArticle rt article expectedEncoderVersion expectedEmbeddingDimension availableAt
  else if article.representationType = "mind-text-v1" then validateTextArticle rt article
  else .error (.valueError "unsupported article representation")

/-! ### Names of identities -/

mutual
/-- `_contains_forbidden_identity_key(value)`. -/
def containsForbiddenIdentityKey : Value → Bool
  | .dict fields => forbiddenInFields fields
  | .list items => forbiddenInItems items
  | _ => false

/-- Some name of a mapping is forbidden, or some value has one. -/
def forbiddenInFields : List (String × Value) → Bool
  | [] => false
  | (k, v) :: fs =>
    ["user_id", "post_id", "impression_id", "request_id", "news_id", "mind_id"].contains k
      || containsForbiddenIdentityKey v || forbiddenInFields fs

/-- Some item of a list has a forbidden name. -/
def forbiddenInItems : List Value → Bool
  | [] => false
  | v :: vs => containsForbiddenIdentityKey v || forbiddenInItems vs
end

/-- A record with the given names; its values are not looked at. -/
def namesOnly (names : List String) : Dict := names.map fun name => (name, .none)

/-- `ArticleRepresentation.to_record()`, its names. -/
def articleRecord : Value :=
  .dict (namesOnly ["article_group", "representation_type", "encoder_version", "content_hash",
    "embedding", "feature_source_updated_at", "feature_computed_at", "category", "subcategory",
    "title", "abstract", "published_at", "language", "language_detector_version"])

/-- `RankingDatasetRow.to_record()`, its names. -/
def RankingDatasetRow.toRecord (row : RankingDatasetRow F) : Value :=
  .dict (namesOnly ["sample_id", "request_group", "candidate_group", "split", "served_at",
      "visible_at", "position", "served", "visible", "click_label", "utility_label",
      "utility_label_name", "feed_source", "model_version", "source_format", "dataset_scope",
      "declared_topics", "declared_topics_observed_at"]
    ++ [("article", articleRecord),
      ("history", .list (row.history.map fun _ =>
        .dict (("article", articleRecord) :: namesOnly ["ordinal", "engaged_at", "provenance"])))])

/-! ### Rows -/

/-- The utility that a semantic stands for. -/
def expectedUtility : Label.Semantic → Option Int
  | .click => some 1
  | .qualifiedRead => some 1
  | .positive => some 1
  | .strongPositive => some 1
  | .negative => some 0
  | .strongNegative => some 0
  | .exposure => none

/-- `times != sorted(times)` on times that may be missing. -/
def raiseUnlessOrdered (times : List (Option Timestamp)) : Except Raised Unit :=
  if times.length ≤ 1 then .ok ()
  else if ∀ t ∈ times, t.isSome then
    raiseIf (¬ ((times.filterMap fun t => t.map Timestamp.micros).Pairwise (· ≤ ·)))
      "history timestamps must be ordered"
  else .error (.typeError "'<' not supported")

/-- The checks of an entry of the history. -/
def validateHistoryEntry (result : RankingBuildResult F) (row : RankingDatasetRow F)
    (entry : RankingHistoryEntry F) : Except Raised Unit := do
  raiseIf (¬ IsPrivateHash rt entry.article.articleGroup) "history identities must be private hashes"
  validateArticleRepresentation rt entry.article result.expectedEncoderVersion
    result.expectedEmbeddingDimension entry.engagedAt
  if entry.provenance = "oecophylla-click-v2" then
    raiseIf (∀ engaged ∈ entry.engagedAt, row.servedAt ≤ engaged)
      "history must be strictly before serving"
  else if entry.provenance = "mind-pre-impression-snapshot" then
    raiseIf entry.engagedAt.isSome "MIND snapshot history must use ordinal ordering"
  else .error (.valueError "unsupported history provenance")

/-- The checks of a row; `sampleIds` are those of the rows before it. -/
def validateRow (result : RankingBuildResult F) (sampleIds : List String)
    (row : RankingDatasetRow F) : Except Raised (List String) := do
  raiseIf (row.datasetScope ≠ "served-impression-reranking")
    "dataset scope must be served-impression-reranking"
  raiseIf (row.served = false ∨ row.visible = false)
    "dataset v2 candidates must be served and visibly proven"
  raiseIf (row.visibleAt < row.servedAt) "visible_at must not precede served_at"
  raiseIf (row.clickLabel ∉ [0, 1] ∨ row.utilityLabel ∉ [0, 1]) "dataset v2 labels must be binary"
  raiseIf (expectedUtility row.utilityLabelName ≠ some row.utilityLabel)
    "utility label does not match its versioned semantic"
  raiseIf (∃ value ∈ [row.sampleId, row.requestGroup, row.candidateGroup], ¬ IsPrivateHash rt value)
    "dataset v2 identities must be private hashes"
  raiseIf (row.sampleId ∈ sampleIds) "dataset v2 sample_id must be unique"
  raiseIf (row.article.articleGroup ≠ row.candidateGroup)
    "candidate identity must match its article representation"
  validateArticleRepresentation rt row.article result.expectedEncoderVersion
    result.expectedEmbeddingDimension (some row.servedAt)
  raiseIf (row.declaredTopics ≠ stableSort compare row.declaredTopics.eraseDups)
    "declared topics must be canonical, unique, and sorted"
  raiseIf (∃ topic ∈ row.declaredTopics, topic = "" ∨ topic ≠ rt.lower (strip topic))
    "declared topics must be normalized lowercase labels"
  raiseIf (row.declaredTopics ≠ [] ∧ row.declaredTopicsObservedAt.isNone)
    "declared topic provenance timestamp is required"
  raiseIf (∃ observed ∈ row.declaredTopicsObservedAt, row.servedAt < observed)
    "declared topic context must not be from the future"
  raiseIf (row.history.map RankingHistoryEntry.ordinal ≠ List.range row.history.length)
    "history ordinals must be contiguous and ordered"
  raiseUnlessOrdered ((row.history.filter fun entry => entry.provenance = "oecophylla-click-v2").map
    RankingHistoryEntry.engagedAt)
  row.history.forM (validateHistoryEntry rt result row)
  raiseIf (containsForbiddenIdentityKey row.toRecord) "raw identity field leaked into dataset v2"
  pure (row.sampleId :: sampleIds)

/-! ### Requests -/

/-- `by_request.values()`. -/
def byRequest (rows : List (RankingDatasetRow F)) : List (List (RankingDatasetRow F)) :=
  (rows.map RankingDatasetRow.requestGroup).eraseDups.map fun request =>
    rows.filter fun row => row.requestGroup = request

/-- `len({key(row) for row in candidates})`. -/
def countDistinct {α : Type} [BEq α] (candidates : List (RankingDatasetRow F))
    (key : RankingDatasetRow F → α) : Nat :=
  (candidates.map key).eraseDups.length

/-- The checks of the rows of a request. -/
def validateRequest [BEq F] (candidates : List (RankingDatasetRow F)) : Except Raised Unit := do
  raiseIf (candidates.length < 2) "each request requires at least two candidates"
  raiseIf (countDistinct candidates (·.split) ≠ 1) "request group crosses splits"
  raiseIf (countDistinct candidates (·.auditRequestIdentity) ≠ 1)
    "request hash collision or conflicting request envelope"
  raiseIf (countDistinct candidates (·.position) ≠ candidates.length)
    "candidate positions must be unique within a request"
  raiseIf (countDistinct candidates (·.candidateGroup) ≠ candidates.length)
    "candidates must be unique within a request"
  raiseIf (countDistinct candidates (·.history) ≠ 1)
    "request candidates must share one history snapshot"
  raiseIf (countDistinct candidates (fun row => (row.declaredTopics, row.declaredTopicsObservedAt)) ≠ 1)
    "request candidates must share declared topic context"
  raiseIf (countDistinct candidates (fun row =>
      (row.servedAt, row.feedSource, row.modelVersion, row.sourceFormat)) ≠ 1)
    "request candidates must share one immutable serving envelope"

/-- The times of the requests of a split. -/
def requestTimes (requests : List (List (RankingDatasetRow F))) (split : SplitName) : List Int :=
  (requests.filterMap List.head?).filterMap fun row =>
    if row.split = split then some row.servedAt.micros else none

/-- `pairwise(populated)`: every populated split ends before the next one begins. -/
def Chronological : List (List Int) → Prop
  | earlier :: later :: rest =>
    (∀ t ∈ earlier, ∀ u ∈ later, t ≤ u) ∧ Chronological (later :: rest)
  | _ => True

instance decidableChronological : (times : List (List Int)) → Decidable (Chronological times)
  | [] => inferInstanceAs (Decidable True)
  | [_] => inferInstanceAs (Decidable True)
  | earlier :: later :: rest =>
    have := decidableChronological (later :: rest)
    inferInstanceAs (Decidable ((∀ t ∈ earlier, ∀ u ∈ later, t ≤ u) ∧ Chronological (later :: rest)))

/-- `DatasetV2ValidationReport`. -/
structure DatasetV2ValidationReport where
  requestCount : Nat
  candidateCount : Nat
  emptyHistoryRequests : Nat
  /-- How many rows have the click labels 0 and 1. -/
  clickClassBalance : Nat × Nat
  /-- How many rows have the utility labels 0 and 1. -/
  utilityClassBalance : Nat × Nat
  deriving DecidableEq, Repr

/-- `Counter(label(row) for row in result.rows)`, on the labels 0 and 1. -/
def classBalance (rows : List (RankingDatasetRow F)) (label : RankingDatasetRow F → Int) : Nat × Nat :=
  (rows.countP fun row => label row = 0, rows.countP fun row => label row = 1)

/-- `validate_dataset_v2(result)`. -/
def validateDatasetV2 [BEq F] (result : RankingBuildResult F) :
    Except Raised DatasetV2ValidationReport := do
  raiseIf (result.rows = []) "recommendation dataset v2 must contain candidates"
  let _ ← result.rows.foldlM (validateRow rt result) []
  let requests := byRequest result.rows
  requests.forM validateRequest
  let populated := ([SplitName.train, .validation, .test].map (requestTimes requests)).filter
    fun times => times ≠ []
  raiseIf (¬ Chronological populated) "dataset splits are not chronological"
  let clicks := classBalance result.rows (·.clickLabel)
  let utilities := classBalance result.rows (·.utilityLabel)
  raiseIf (clicks.1 = 0 ∨ clicks.2 = 0)
    "click_label class balance requires positive and negative candidates"
  raiseIf (utilities.1 = 0 ∨ utilities.2 = 0)
    "utility_label class balance requires positive and negative candidates"
  pure {
    requestCount := requests.length
    candidateCount := result.rows.length
    emptyHistoryRequests := requests.countP fun candidates =>
      candidates.head?.all fun row => row.history.isEmpty
    clickClassBalance := clicks
    utilityClassBalance := utilities }

end Oecophylla.Dataset
