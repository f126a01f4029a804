import Oecophylla.Dataset.Schemas
import Oecophylla.Lib.OrderedDict
import Oecophylla.Ranker.Calibration
import Oecophylla.Ranker.Pairwise

namespace Oecophylla.Ranker

open Dataset (SplitName)
open Lib (OrderedDict stableSort)
open Oecophylla.Python (Timestamp)

/-!
# What training reads of a dataset — `ai_pipeline/train.py`, `ai_pipeline/model.py`

* `Metadata`, `validateV2Metadata` — the metadata, and what is left of it when it is valid;
* `TableRow`, `readV2Rows`, `validateV2Contract` — the rows, and those that training gets;
* `splitV2Rows` — the rows of the three splits;
* `selectAttentionHeads`, `selectHistoryLength`, `computePopularEmbedding` — the architecture;
* `buildPairwiseExamples` — the pairs of a clicked and another candidate.
-/

/-- `DatasetValidationError`, and a `ValueError` of the model or of numpy. -/
inductive TrainError where
  | datasetValidation (text : String)
  | valueError (text : String)
  deriving DecidableEq, Repr

/-! ### Metadata -/

/-- The metadata of a dataset; `queryWindow` says that the window is a dictionary. -/
structure Metadata where
  datasetSchemaVersion : Option String
  historySchemaVersion : Option String
  featureSchemaVersion : Option String
  labelDefinitionVersion : Option String
  encoderVersion : Option String
  encoderDimension : Option Int
  queryWindow : Bool
  rowCount : Option Int
  codeVersion : Option String

/-- Valid metadata. -/
structure TrainingMetadata where
  historySchemaVersion : String
  labelDefinitionVersion : String
  encoderVersion : String
  dimension : Nat
  rowCount : Option Int
  codeVersion : Option String
  encoderVersion_ne_empty : encoderVersion ≠ ""
  dimension_pos : 0 < dimension

def datasetSchemaVersionV2 : String := "recommendation-dataset-v2"

def historySchemaVersions : List String :=
  ["user-history-snapshot-v1", "mind-pre-impression-history-v1"]

/-- A text that is there and not empty. -/
def present (value : Option String) (message : String) :
    Except TrainError { text : String // text ≠ "" } :=
  match value with
  | none => .error (.datasetValidation message)
  | some text =>
    if h : text ≠ "" then .ok ⟨text, h⟩ else .error (.datasetValidation message)

/-- `_validate_v2_metadata(metadata)`. -/
def validateV2Metadata (metadata : Metadata) : Except TrainError TrainingMetadata := do
  if metadata.datasetSchemaVersion ≠ some datasetSchemaVersionV2 then
    throw (.datasetValidation "dataset schema version is not supported")
  let historySchemaVersion ← match metadata.historySchemaVersion with
    | some version =>
      if version ∈ historySchemaVersions then pure version
      else throw (.datasetValidation "history schema version is not supported")
    | none => throw (.datasetValidation "history schema version is not supported")
  let _ ← present metadata.featureSchemaVersion "feature schema version is missing"
  let label ← present metadata.labelDefinitionVersion "label definition version is missing"
  let encoder ← present metadata.encoderVersion "encoder version is missing"
  match metadata.encoderDimension with
  | none => throw (.datasetValidation "encoder dimension is missing or invalid")
  | some dimension =>
    if h : 0 < dimension then
      if metadata.queryWindow then
        pure {
          historySchemaVersion
          labelDefinitionVersion := label
          encoderVersion := encoder
          dimension := dimension.toNat
          rowCount := metadata.rowCount
          codeVersion := metadata.codeVersion
          encoderVersion_ne_empty := encoder.2
          dimension_pos := Int.pos_iff_toNat_pos.mp h }
      else throw (.datasetValidation "dataset data window is missing")
    else throw (.datasetValidation "encoder dimension is missing or invalid")

/-! ### Rows -/

section Rows

variable {V : Type}

/-- An entry of the history of a row of the table; `V` is the type of embeddings. -/
structure TableEntry (V : Type) where
  ordinal : Int
  embedding : Option V
  engagedAt : Option Timestamp
  provenance : Option String

/-- A row of the table. -/
structure TableRow (V : Type) where
  requestGroup : Option String
  split : Option String
  servedAt : Timestamp
  sourceFormat : Option String
  embedding : Option V
  declaredTopicEmbedding : Option V
  history : List (TableEntry V)
  clickLabel : Bool

/-- A parquet table. -/
structure Table (V : Type) where
  columns : List String
  rows : List (TableRow V)

/-- A row that training gets. -/
structure TrainingRow (V : Type) where
  requestGroup : String
  split : SplitName
  embedding : V
  declaredTopicEmbedding : Option V
  history : List (HistoryEntry V)
  clickLabel : Bool

/-- `NRMS_REQUIRED_ROW_COLUMNS`, sorted. -/
def nrmsRequiredRowColumns : List String :=
  ["article", "candidate_group", "click_label", "feed_source", "history", "position",
    "request_group", "sample_id", "served_at", "split"]

/-- `_read_v2_rows(dataset, metadata)`, of what `pq.read_table` returned. -/
def readV2Rows (read : Except String (Table V)) (metadata : TrainingMetadata) :
    Except TrainError (List (TableRow V)) :=
  match read with
  | .error text => .error (.datasetValidation s!"invalid parquet dataset: {text}")
  | .ok table =>
    let missing := nrmsRequiredRowColumns.filter fun column => column ∉ table.columns
    let names := String.intercalate ", " missing
    if missing ≠ [] then .error (.datasetValidation s!"missing required columns: {names}")
    else if metadata.rowCount ≠ some (table.rows.length : Int) then
      .error (.datasetValidation "dataset row count does not match metadata")
    else .ok table.rows

def splitOf : String → Option SplitName
  | "train" => some .train
  | "validation" => some .validation
  | "test" => some .test
  | _ => none

/-- One entry of the history, in the loop of `_validate_v2_contract`. -/
def validateEntry (historySchemaVersion : String) (row : TableRow V) (entry : TableEntry V) :
    Except TrainError (HistoryEntry V) :=
  match entry.embedding with
  | none => .error (.datasetValidation "history entry is missing an embedding")
  | some embedding =>
    if historySchemaVersion = "mind-pre-impression-history-v1" then
      if row.sourceFormat ≠ some "official-mind-tsv-v1"
          ∨ entry.provenance ≠ some "mind-pre-impression-snapshot"
          ∨ entry.engagedAt.isSome then
        .error (.datasetValidation "invalid timestamp-free MIND history provenance")
      else .ok ⟨entry.ordinal, embedding⟩
    else
      match entry.engagedAt with
      | none => .error (.datasetValidation "local history requires an observed event timestamp")
      | some engagedAt =>
        if row.servedAt ≤ engagedAt then
          .error (.datasetValidation
            "history event occurs at or after the request was served")
        else .ok ⟨entry.ordinal, embedding⟩

/-- One row, in the loop of `_validate_v2_contract`. -/
def validateRow (historySchemaVersion : String) (row : TableRow V) :
    Except TrainError (TrainingRow V) :=
  match row.requestGroup, row.split.bind splitOf with
  | some requestGroup, some split =>
    if requestGroup = "" then
      .error (.datasetValidation "row is missing request_group or has an unsupported split")
    else
      match row.embedding with
      | none => .error (.datasetValidation "candidate article is missing an embedding")
      | some embedding => do
        let history ← row.history.mapM (validateEntry historySchemaVersion row)
        pure ⟨requestGroup, split, embedding, row.declaredTopicEmbedding, history, row.clickLabel⟩
  | _, _ => .error (.datasetValidation "row is missing request_group or has an unsupported split")

/-- `_validate_v2_contract(rows, history_schema_version=…)`; the rows that training gets. -/
def validateV2Contract (historySchemaVersion : String) (rows : List (TableRow V)) :
    Except TrainError (List (TrainingRow V)) := do
  let rows ← rows.mapM (validateRow historySchemaVersion)
  let leaked := rows.any fun a => rows.any fun b =>
    a.requestGroup = b.requestGroup ∧ a.split ≠ b.split
  if leaked then
    throw (.datasetValidation "request_group appears in multiple dataset splits")
  else pure rows

/-- `rows_by_split`. -/
structure SplitRows (V : Type) where
  train : List (TrainingRow V)
  validation : List (TrainingRow V)
  test : List (TrainingRow V)

/-- `_split_v2_rows(rows)`. -/
def splitV2Rows (rows : List (TrainingRow V)) : Except TrainError (SplitRows V) :=
  let ofSplit (split : SplitName) := rows.filter fun row => row.split = split
  if (ofSplit .train).isEmpty then .error (.datasetValidation "train split must not be empty")
  else if (ofSplit .validation).isEmpty then
    .error (.datasetValidation "validation split must not be empty")
  else if (ofSplit .test).isEmpty then .error (.datasetValidation "test holdout must not be empty")
  else .ok ⟨ofSplit .train, ofSplit .validation, ofSplit .test⟩

end Rows

/-! ### The architecture -/

/-- `_select_attention_heads(dimension)`. -/
def selectAttentionHeads (dimension : Nat) : Nat :=
  ([2, 4, 8, 1].find? fun candidate => dimension % candidate = 0).getD 1

/-- `_select_history_length(rows)`. -/
def selectHistoryLength {V : Type} (rows : List (TrainingRow V)) : Nat :=
  let observed := (rows.map fun row => row.history.length).foldl max 0
  min (max observed 1) 20

theorem selectAttentionHeads_spec (dimension : Nat) :
    0 < selectAttentionHeads dimension
      ∧ selectAttentionHeads dimension * (dimension / selectAttentionHeads dimension)
        = dimension := by
  -- whichever candidate is found divides the dimension; 1 always does
  have hfound : selectAttentionHeads dimension ∈ [2, 4, 8, 1]
      ∧ dimension % selectAttentionHeads dimension = 0 := by
    unfold selectAttentionHeads
    cases hfind : [2, 4, 8, 1].find? fun candidate => dimension % candidate = 0 with
    | none => exact ⟨by simp, Nat.mod_one dimension⟩
    | some candidate =>
      exact ⟨List.mem_of_find?_eq_some hfind, by simpa using List.find?_some hfind⟩
  refine ⟨?_, Nat.mul_div_cancel' (Nat.dvd_of_mod_eq_zero hfound.2)⟩
  simp only [List.mem_cons, List.not_mem_nil, or_false] at hfound
  omega

section Embeddings

variable {F : Type} [Field F] [LinearOrder F] {heads width : Nat}

/-- `_compute_popular_embedding(rows, dimension)`. -/
def computePopularEmbedding (rows : List (TrainingRow (Embedding F heads width))) :
    Embedding F heads width :=
  if rows.isEmpty then 0
  else fun d => (rows.map fun row => row.embedding d).sum / rows.length

/-- The pairs of one request. -/
def requestExamples (candidates : List (TrainingRow (Embedding F heads width))) :
    List (PairwiseExample F heads width) :=
  let positives := candidates.filter fun row => row.clickLabel
  let negatives := candidates.filter fun row => !row.clickLabel
  match candidates with
  | [] => []
  | reference :: _ =>
    let historyEmbeddings :=
      (NRMSLikeRanker.sortedHistory reference.history).map HistoryEntry.embedding
    -- a request without clicks or with clicks only has no pairs
    positives.flatMap fun positive => negatives.map fun negative =>
      ⟨historyEmbeddings, positive.embedding, negative.embedding⟩

/-- `build_pairwise_examples(rows)`. -/
def buildPairwiseExamples (rows : List (TrainingRow (Embedding F heads width))) :
    List (PairwiseExample F heads width) :=
  let grouped := OrderedDict.groupBy (fun row => row.requestGroup) rows
  (stableSort (Lib.compareBy compare Prod.fst) grouped).flatMap fun group =>
    requestExamples group.2

end Embeddings

/-- A row of the validation split, for the calibration. -/
def TrainingRow.forCalibration {heads width : Nat}
    (row : TrainingRow (Embedding ℝ heads width)) : ValidationRow heads width where
  history := row.history.map fun entry => ⟨entry.ordinal, some entry.embedding⟩
  declaredTopicEmbedding := row.declaredTopicEmbedding
  embedding := row.embedding
  clickLabel := row.clickLabel

end Oecophylla.Ranker
