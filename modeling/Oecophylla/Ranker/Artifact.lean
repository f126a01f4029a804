import Oecophylla.Evaluation.Names
import Oecophylla.Ranker.Train

namespace Oecophylla.Ranker

open Evaluation (Document)
open Evaluation.Document (isText numberAt numberOr eqNumbers)
open Lib (OrderedDict except_bind_eq_ok)

/-!
# Artifacts — `ai_pipeline/artifact.py`, `train.py`, `finetune.py`

* `Directory` — an artifact: its manifest, as `json.loads` gives it, and its model file;
* `writeArtifact`, `trainArtifact`, `exportArtifact` — the two writers;
* `loadArtifact` — the reader, with its checks in their order;
* `ArchitectureAgrees` — the architecture of a manifest and that of a payload;
* `expected_iff` — the names that the reader expects;
* `Accepts`, `loadArtifact_eq_ok_iff` — which manifests are accepted for a payload;
* `artifact_laws` — what the writers write is loaded; what is loaded agrees with its manifest.
-/

def artifactSchemaVersion : String := "recommendation-model-artifact-v1"

def nrmsModelType : String := "nrms-like-impression-ranker"

def modelFilename : String := "model.joblib"

/-- `FEATURE_COLUMNS`. -/
def featureColumns : List String :=
  ["topic_relevance", "freshness", "safety_score", "author_affinity", "heuristic_score",
    "feed_source", "candidate_source", "is_followed_author"]

/-- A document that `json.loads` gives, or that can be written. -/
abbrev Parsed (F : Type) := {d : Document F // d.Distinct}

/-- What a model file holds. -/
inductive Payload (F : Type) where
  | ranker (r : StoredRanker F)
  /-- A sklearn `Pipeline`. -/
  | pipeline
  | other

/-- `sha256_file`, `joblib.dump` and `joblib.load`. -/
structure Joblib (F : Type) where
  sha256 : Bytes → String
  dump : StoredRanker F → Bytes
  load : Bytes → Except String (Payload F)

/-- An artifact; the error of a manifest is that of reading or decoding it. -/
structure Directory (F : Type) where
  manifest : Except String (Parsed F)
  model : Option Bytes

/-! ### Writing -/

section Write

variable {F : Type}

theorem distinct_dict {fields : List (String × Document F)} (hnodup : (fields.map Prod.fst).Nodup)
    (hvalues : ∀ f ∈ fields, f.2.Distinct) : (Document.dict fields).Distinct :=
  ⟨hnodup, Document.distinctFields_iff.mpr hvalues⟩

/-- `manifest["files"]`. -/
def filesEntry (joblib : Joblib F) (bytes : Bytes) : Document F :=
  .dict [(modelFilename, .dict [("sha256", .str (joblib.sha256 bytes)),
    ("size_bytes", .int bytes.length)])]

theorem distinct_filesEntry (joblib : Joblib F) (bytes : Bytes) :
    (filesEntry joblib bytes).Distinct := by
  refine distinct_dict (List.nodup_singleton _) ?_
  intro f hf
  rw [List.mem_singleton.mp hf]
  refine distinct_dict (by simp) ?_
  simp [Document.Distinct]

/-- Setting a name keeps the names distinct. -/
theorem distinct_set {fields : OrderedDict String (Document F)} {name : String} {v : Document F}
    (h : (Document.dict fields).Distinct) (hv : v.Distinct) :
    (Document.dict (fields.set name v)).Distinct := by
  refine distinct_dict (OrderedDict.nodup_set h.1 name v) ?_
  intro f hf
  rcases OrderedDict.mem_set hf with hf | rfl
  · exact Document.distinctFields_iff.mp h.2 f hf
  · exact hv

/-- A manifest before its `files` are set. -/
abbrev Manifest (F : Type) :=
  {fields : OrderedDict String (Document F) // (Document.dict fields).Distinct}

/-- `_write_artifact(model_object, manifest, output)`. -/
def writeArtifact (joblib : Joblib F) (model : StoredRanker F) (manifest : Manifest F) :
    Directory F :=
  let bytes := joblib.dump model
  let fields := manifest.1.set "files" (filesEntry joblib bytes)
  { manifest := .ok ⟨(Document.dict fields).sortKeys,
      (distinct_set manifest.2 (distinct_filesEntry joblib bytes)).sortKeys⟩
    model := some bytes }

/-- Where an artifact goes: `str(output)`, `output.parent.name`, `output.name` and
    `output.exists()`. -/
structure Output where
  path : String
  parentName : String
  name : String
  taken : Bool

/-- The manifest of `export_artifact`. -/
def exportManifest (r : StoredRanker F) (output : Output)
    (trainingReport datasetMetadata datasetSha256 dependencyVersions : Parsed F)
    (encoderVersion : String) : OrderedDict String (Document F) :=
  let a := r.architecture
  [("artifact_schema_version", .str artifactSchemaVersion),
    ("model_type", .str nrmsModelType),
    ("model_version", .str
      (if output.name = "model" then output.parentName ++ "-nrms" else output.name)),
    ("dataset_schema_version", .str "recommendation-dataset-v2"),
    ("seed", .int a.seed),
    ("architecture", .dict [("embedding_dimension", .int a.embeddingDimension),
      ("attention_heads", .int a.attentionHeads),
      ("history_length", .int a.historyLength),
      ("position_scale", .float a.positionScale),
      ("semantic_residual", .float a.semanticResidual)]),
    ("embedding", .dict [("version", .str encoderVersion),
      ("dimension", .int a.embeddingDimension)]),
    ("history", .dict [("schema_version", .str "mind-pre-impression-history-v1")]),
    ("label_schema", .dict [("training_target", .str "click_label"),
      ("label_definition_version", .str "mind-click-label-v1")]),
    ("training", trainingReport.1),
    ("calibration", .dict [("method", .str "positive-temperature-sigmoid"),
      ("scale", .float r.calibrationScale), ("bias", .float r.calibrationBias)]),
    ("dependency_versions", dependencyVersions.1),
    ("dataset", .dict [("format", .str "mind-compact-v1"), ("sha256", datasetSha256.1),
      ("metadata", datasetMetadata.1)]),
    ("release", .dict [("eligible", .bool false), ("status", .str "offline-benchmark-only"),
      ("reason", .str "requires Oecophylla social/Vietnamese holdout and operational gates")])]

theorem distinct_exportManifest (r : StoredRanker F) (output : Output)
    (trainingReport datasetMetadata datasetSha256 dependencyVersions : Parsed F)
    (encoderVersion : String) :
    (Document.dict (exportManifest r output trainingReport datasetMetadata datasetSha256
      dependencyVersions encoderVersion)).Distinct := by
  have hreport := trainingReport.2
  have hmetadata := datasetMetadata.2
  have hsha256 := datasetSha256.2
  have hversions := dependencyVersions.2
  simp [exportManifest, Document.Distinct, Document.DistinctFields, *]

/-- `export_artifact(ranker, output, …)`. -/
def exportArtifact (joblib : Joblib F) (r : StoredRanker F) (output : Output)
    (trainingReport datasetMetadata datasetSha256 dependencyVersions : Parsed F)
    (encoderVersion : String) : Except String (Directory F) :=
  if output.taken then .error s!"artifact output already exists: {output.path}"
  else .ok (writeArtifact joblib r ⟨_, distinct_exportManifest r output trainingReport
    datasetMetadata datasetSha256 dependencyVersions encoderVersion⟩)

/-- The manifest of `_train_nrms_from_dataset`. -/
noncomputable def trainManifest (lib : Library) (files : DatasetFiles) (seed epochs : Int)
    (output : Output) (dependencyVersions : Parsed ℝ) (trained : Trained) :
    OrderedDict String (Document ℝ) :=
  let a := trained.architecture
  [("artifact_schema_version", .str artifactSchemaVersion),
    ("model_version", .str output.name),
    ("model_type", .str nrmsModelType),
    ("seed", .int seed),
    ("dataset_schema_version", .str datasetSchemaVersionV2),
    ("architecture", .dict [("embedding_dimension", .int a.embeddingDimension),
      ("attention_heads", .int a.attentionHeads),
      ("history_length", .int a.historyLength)]),
    ("embedding", .dict [("version", .str trained.metadata.encoderVersion),
      ("dimension", .int trained.metadata.dimension)]),
    ("history", .dict [("schema_version", .str trained.metadata.historySchemaVersion)]),
    ("label_schema", .dict [("training_target", .str "click_label"),
      ("label_definition_version", .str trained.metadata.labelDefinitionVersion)]),
    ("row_counts", .dict [("test", .int (trained.rowCounts .test)),
      ("train", .int (trained.rowCounts .train)),
      ("validation", .int (trained.rowCounts .validation))]),
    ("calibration", .dict [("method", .str "temperature-scaled-sigmoid"),
      ("scale", .float trained.ranker.calibrationScale),
      ("bias", .float trained.ranker.calibrationBias)]),
    ("training", .dict [("epochs", .int epochs),
      ("resumed_from_epoch", .int trained.startEpoch),
      ("learning_rate", .float nrmsLearningRate),
      ("pairwise_examples", .int trained.pairwiseExamples)]),
    ("dependency_versions", dependencyVersions.1),
    ("dataset", .dict [("parquet_sha256", .str (lib.sha256 files.parquet)),
      ("metadata_sha256", .str (lib.sha256 files.metadata)),
      ("source_code_version", .ofText trained.metadata.codeVersion)])]

theorem distinct_trainManifest (lib : Library) (files : DatasetFiles) (seed epochs : Int)
    (output : Output) (dependencyVersions : Parsed ℝ) (trained : Trained) :
    (Document.dict (trainManifest lib files seed epochs output dependencyVersions
      trained)).Distinct := by
  have hversions := dependencyVersions.2
  have hcode : ∀ text : Option String, (Document.ofText text : Document ℝ).Distinct := by
    rintro (_ | text) <;> trivial
  simp [trainManifest, Document.Distinct, Document.DistinctFields, *]

/-- The artifact of `_train_nrms_from_dataset`, when it returns. -/
noncomputable def trainArtifact (lib : Library) (joblib : Joblib ℝ) (files : DatasetFiles)
    (metadata : Metadata) (seed epochs : Int) (checkpoint resume : Bool)
    (store : Option Checkpoint) (output : Output) (dependencyVersions : Parsed ℝ) :
    Except TrainError (Directory ℝ) :=
  (trainNrmsFromDataset lib files metadata seed epochs checkpoint resume store).1.map
    fun trained => writeArtifact joblib trained.ranker
      ⟨_, distinct_trainManifest lib files seed epochs output dependencyVersions trained⟩

end Write

/-! ### Loading -/

/-- What `load_artifact` raises. -/
inductive ArtifactError where
  /-- `ArtifactIntegrityError`. -/
  | integrity (text : String)
  /-- `.get` of a manifest that is not a `dict`. -/
  | attributeError
  /-- `in` and `tuple` of what has no items. -/
  | typeError
  | zeroDivisionError
  deriving DecidableEq, Repr

/-- `LoadedNRMSArtifact`, or a `LoadedArtifact`. -/
inductive LoadedArtifact (F : Type) where
  | nrms (ranker : StoredRanker F) (manifest : Document F)
  | pipeline (manifest : Document F)

section Load

variable {F : Type}

/-- `tuple(manifest.get("feature_columns", ()))`. -/
def columnsOf : Option (Document F) → Except ArtifactError (List (Document F))
  | none => .ok []
  | some (.list items) => .ok items
  | some (.str s) => .ok (s.toList.map fun c => .str (String.singleton c))
  | some (.dict fields) => .ok (fields.map fun f => .str f.1)
  | some _ => .error .typeError

/-- The check of the feature columns, of an artifact that is not an NRMS one. -/
def checkFeatureColumns (isNrms : Bool) (fields : List (String × Document F)) :
    Except ArtifactError Unit :=
  if isNrms then .ok ()
  else do
    let columns ← columnsOf (fields.lookup "feature_columns")
    if columns.length = featureColumns.length
        ∧ (columns.zip featureColumns).all fun e => isText (some e.1) e.2 then pure ()
    else throw (.integrity "artifact feature schema does not match runtime")

/-- `manifest["files"][MODEL_FILENAME]["sha256"]`, when it is there. -/
def checksum? (fields : List (String × Document F)) : Option (Document F) := do
  let files ← fields.lookup "files"
  let entry ← files.item modelFilename
  entry.item "sha256"

/-- The payload, of a model file with the checksum of the manifest. -/
def loadModel (joblib : Joblib F) (fields : List (String × Document F)) (model : Option Bytes) :
    Except ArtifactError (Payload F) :=
  match checksum? fields with
  | none => .error (.integrity "model checksum is missing from manifest")
  | some expectedChecksum =>
    match model with
    | none => .error (.integrity "model file is missing")
    | some bytes =>
      if isText (some expectedChecksum) (joblib.sha256 bytes) then
        match joblib.load bytes with
        | .error text => .error (.integrity s!"model cannot be loaded: {text}")
        | .ok payload => .ok payload
      else .error (.integrity "model checksum mismatch")

/-- `name in manifest.get("architecture", {})`. -/
def architectureHas (architecture : Option (Document F)) (name : String) :
    Except ArtifactError Bool :=
  match architecture with
  | none => .ok false
  | some (.dict fields) => .ok (fields.lookup name).isSome
  | some (.list items) => .ok (items.any fun v => isText (some v) name)
  | some (.str s) => .ok (decide (name.toList <:+: s.toList))
  | some _ => .error .typeError

variable [Field F] [LinearOrder F]

/-- The entries of `expected_architecture`, with and without the two optional ones. -/
def expectedFields (a : StoredArchitecture F) (scaled residual : Bool) : List (String × F) :=
  [("embedding_dimension", (a.embeddingDimension : F)),
    ("attention_heads", (a.attentionHeads : F)),
    ("history_length", (a.historyLength : F))]
    ++ (if scaled then [("position_scale", a.positionScale)] else [])
    ++ if residual then [("semantic_residual", a.semanticResidual)] else []

/-- `expected_architecture`. -/
def expectedArchitecture (manifest : Option (Document F)) (a : StoredArchitecture F) :
    Except ArtifactError (List (String × F)) := do
  let scaled ← if a.positionScale ≠ 1 then pure true else architectureHas manifest "position_scale"
  let residual ← if a.semanticResidual ≠ 0 then pure true
    else architectureHas manifest "semantic_residual"
  pure (expectedFields a scaled residual)

/-- The check of `manifest["embedding"]`. -/
def embeddingMatches (embedding : Option (Document F)) (a : StoredArchitecture F) : Bool :=
  match embedding with
  | some (.dict fields) =>
    numberAt fields "dimension" = some (a.embeddingDimension : F)
      && ((fields.lookup "version").map Document.isTruthy).getD false
  | _ => false

/-- The checks of an NRMS payload. -/
def checkRanker (fields : List (String × Document F)) (r : StoredRanker F) :
    Except ArtifactError Unit := do
  let a := r.architecture
  let expected ← expectedArchitecture (fields.lookup "architecture") a
  if !eqNumbers (fields.lookup "architecture") expected then
    throw (.integrity "NRMS manifest architecture does not match model payload")
  else if numberAt fields "seed" ≠ some (a.seed : F) then
    throw (.integrity "NRMS manifest seed does not match model payload architecture")
  else if !embeddingMatches (fields.lookup "embedding") a then
    throw (.integrity "NRMS manifest embedding contract does not match model payload")
  else if a.attentionHeads = 0 then throw .zeroDivisionError
  else if [r.queryProjection, r.keyProjection, r.valueProjection].any
      fun projection => shapeOf projection ≠ a.headShape then
    throw (.integrity "NRMS projection shape does not match model architecture")
  else if r.popularEmbedding.any fun popular => shapeOf popular ≠ [a.embeddingDimension] then
    throw (.integrity "NRMS fallback vector does not match model architecture")
  else pure ()

/-- The checks of the payload, of an NRMS artifact and of another. -/
def checkPayload (fields : List (String × Document F)) :
    Bool → Payload F → Except ArtifactError (LoadedArtifact F)
  | true, .ranker r => (checkRanker fields r).map fun _ => .nrms r (.dict fields)
  | true, _ => .error (.integrity "model payload is not an NRMS ranker")
  | false, .pipeline => .ok (.pipeline (.dict fields))
  | false, _ => .error (.integrity "model payload is not a sklearn Pipeline")

/-- `load_artifact(directory)`. -/
def loadArtifact (joblib : Joblib F) (directory : Directory F) :
    Except ArtifactError (LoadedArtifact F) :=
  match directory.manifest with
  | .error text => .error (.integrity s!"invalid artifact manifest: {text}")
  | .ok ⟨.dict fields, _⟩ =>
    if !isText (fields.lookup "artifact_schema_version") artifactSchemaVersion then
      .error (.integrity "unsupported artifact schema version")
    else do
      let isNrms := isText (fields.lookup "model_type") nrmsModelType
      checkFeatureColumns isNrms fields
      let payload ← loadModel joblib fields directory.model
      checkPayload fields isNrms payload
  | .ok _ => .error .attributeError

end Load

/-! ### What is accepted -/

section Accept

variable {F : Type} [Field F] [LinearOrder F]

/-- The architecture of a manifest is that of a payload; a `position_scale` that is not there is 1,
    and a `semantic_residual` that is not there is 0. -/
structure ArchitectureAgrees (fields : List (String × Document F)) (a : StoredArchitecture F) :
    Prop where
  dimension : numberAt fields "embedding_dimension" = some (a.embeddingDimension : F)
  heads : numberAt fields "attention_heads" = some (a.attentionHeads : F)
  history : numberAt fields "history_length" = some (a.historyLength : F)
  scale : numberOr fields "position_scale" 1 = some a.positionScale
  residual : numberOr fields "semantic_residual" 0 = some a.semanticResidual
  names : ∀ name ∈ fields.map Prod.fst, name ∈ ["embedding_dimension", "attention_heads",
    "history_length", "position_scale", "semantic_residual"]

/-- A manifest and its payload agree. -/
structure Agrees (fields : List (String × Document F)) (r : StoredRanker F) : Prop where
  architecture : ∃ a, fields.lookup "architecture" = some (.dict a)
    ∧ ArchitectureAgrees a r.architecture
  seed : numberAt fields "seed" = some (r.architecture.seed : F)
  embedding : ∃ e, fields.lookup "embedding" = some (.dict e)
    ∧ numberAt e "dimension" = some (r.architecture.embeddingDimension : F)
    ∧ ∃ v, e.lookup "version" = some v ∧ v.isTruthy = true
  heads : r.architecture.attentionHeads ≠ 0
  query : shapeOf r.queryProjection = r.architecture.headShape
  key : shapeOf r.keyProjection = r.architecture.headShape
  value : shapeOf r.valueProjection = r.architecture.headShape
  popular : ∀ x ∈ r.popularEmbedding, shapeOf x = [r.architecture.embeddingDimension]

omit [LinearOrder F] in
theorem nodup_expectedFields (a : StoredArchitecture F) (scaled residual : Bool) :
    ((expectedFields a scaled residual).map Prod.fst).Nodup := by
  cases scaled <;> cases residual <;> simp [expectedFields]

omit [LinearOrder F] in
theorem mem_expectedFields {a : StoredArchitecture F} {scaled residual : Bool}
    {e : String × F} :
    e ∈ expectedFields a scaled residual
      ↔ e = ("embedding_dimension", (a.embeddingDimension : F))
        ∨ e = ("attention_heads", (a.attentionHeads : F))
        ∨ e = ("history_length", (a.historyLength : F))
        ∨ (scaled = true ∧ e = ("position_scale", a.positionScale))
        ∨ (residual = true ∧ e = ("semantic_residual", a.semanticResidual)) := by
  cases scaled <;> cases residual <;> simp [expectedFields]

/-- Which of the two optional entries are expected. -/
theorem expectedArchitecture_dict (fields : List (String × Document F))
    (a : StoredArchitecture F) :
    expectedArchitecture (some (.dict fields)) a = .ok (expectedFields a
      (a.positionScale ≠ 1 ∨ (fields.lookup "position_scale").isSome)
      (a.semanticResidual ≠ 0 ∨ (fields.lookup "semantic_residual").isSome)) := by
  unfold expectedArchitecture
  by_cases hscale : a.positionScale = 1 <;> by_cases hresidual : a.semanticResidual = 0 <;>
    simp [architectureHas, hscale, hresidual, bind, Except.bind, pure, Except.pure]

/-- **The names that the reader expects**: with them the architectures are equal dictionaries
    exactly when they agree. -/
theorem expected_iff {fields : List (String × Document F)} (h : (fields.map Prod.fst).Nodup)
    (a : StoredArchitecture F) :
    (∃ expected, expectedArchitecture (some (.dict fields)) a = .ok expected
        ∧ eqNumbers (some (.dict fields)) expected = true)
      ↔ ArchitectureAgrees fields a := by
  rw [expectedArchitecture_dict]
  constructor
  · rintro ⟨expected, hexpected, hequal⟩
    obtain rfl := Except.ok.inj hexpected
    obtain ⟨hvalues, hnames⟩ :=
      (Document.eqNumbers_dict_iff h (nodup_expectedFields a _ _)).mp hequal
    -- each entry that is expected is there with its number
    have hvalue : ∀ e, e ∈ expectedFields a _ _ → numberAt fields e.1 = some e.2 := hvalues
    simp only [mem_expectedFields, decide_eq_true_eq] at hvalue
    refine ⟨hvalue _ (.inl rfl), hvalue _ (.inr (.inl rfl)), hvalue _ (.inr (.inr (.inl rfl))),
      ?_, ?_, ?_⟩
    · rw [Document.numberOr_eq_some_iff]
      exact fun hscaled => hvalue _ (.inr (.inr (.inr (.inl ⟨hscaled, rfl⟩))))
    · rw [Document.numberOr_eq_some_iff]
      exact fun hresidual => hvalue _ (.inr (.inr (.inr (.inr ⟨hresidual, rfl⟩))))
    · intro name hname
      obtain ⟨e, he, rfl⟩ := List.mem_map.mp (hnames name hname)
      rcases mem_expectedFields.mp he with rfl | rfl | rfl | ⟨-, rfl⟩ | ⟨-, rfl⟩ <;> simp
  · intro hagrees
    have hscale := Document.numberOr_eq_some_iff.mp hagrees.scale
    have hresidual := Document.numberOr_eq_some_iff.mp hagrees.residual
    refine ⟨_, rfl, (Document.eqNumbers_dict_iff h (nodup_expectedFields a _ _)).mpr ⟨?_, ?_⟩⟩
    · intro e he
      simp only [mem_expectedFields, decide_eq_true_eq] at he
      rcases he with rfl | rfl | rfl | ⟨hpresent, rfl⟩ | ⟨hpresent, rfl⟩
      · exact hagrees.dimension
      · exact hagrees.heads
      · exact hagrees.history
      · exact hscale hpresent
      · exact hresidual hpresent
    · intro name hname
      have hpresent : (fields.lookup name).isSome := by
        obtain ⟨f, hf, rfl⟩ := List.mem_map.mp hname
        exact List.lookup_isSome_iff.mpr ⟨f, hf, by simp⟩
      have hin := hagrees.names name hname
      -- a name that is there is expected
      have hexpected : ∃ e ∈ expectedFields a
          (a.positionScale ≠ 1 ∨ (fields.lookup "position_scale").isSome)
          (a.semanticResidual ≠ 0 ∨ (fields.lookup "semantic_residual").isSome), e.1 = name := by
        simp only [List.mem_cons, List.not_mem_nil, or_false] at hin
        simp only [mem_expectedFields, decide_eq_true_eq]
        rcases hin with rfl | rfl | rfl | rfl | rfl
        · exact ⟨_, .inl rfl, rfl⟩
        · exact ⟨_, .inr (.inl rfl), rfl⟩
        · exact ⟨_, .inr (.inr (.inl rfl)), rfl⟩
        · exact ⟨_, .inr (.inr (.inr (.inl ⟨.inr hpresent, rfl⟩))), rfl⟩
        · exact ⟨_, .inr (.inr (.inr (.inr ⟨.inr hpresent, rfl⟩))), rfl⟩
      obtain ⟨e, he, hname⟩ := hexpected
      exact List.mem_map.mpr ⟨e, he, hname⟩

theorem embeddingMatches_iff {embedding : Option (Document F)} {a : StoredArchitecture F} :
    embeddingMatches embedding a = true
      ↔ ∃ e, embedding = some (.dict e)
        ∧ numberAt e "dimension" = some (a.embeddingDimension : F)
        ∧ ∃ v, e.lookup "version" = some v ∧ v.isTruthy = true := by
  cases embedding with
  | none => simp [embeddingMatches]
  | some v =>
    cases v with
    | dict e =>
      have hversion : ((e.lookup "version").map Document.isTruthy).getD false = true
          ↔ ∃ v, e.lookup "version" = some v ∧ v.isTruthy = true := by
        cases e.lookup "version" <;> simp
      simp [embeddingMatches, hversion]
    | _ => simp [embeddingMatches]

/-- The checks of a payload pass exactly when the manifest and the payload agree. -/
theorem checkRanker_eq_ok_iff {fields : List (String × Document F)}
    (h : (Document.dict fields).Distinct) {r : StoredRanker F} :
    checkRanker fields r = .ok () ↔ Agrees fields r := by
  have harchitecture : ∀ a, fields.lookup "architecture" = some (.dict a) →
      (a.map Prod.fst).Nodup := by
    intro a ha
    exact (Document.distinctFields_iff.mp h.2 _ (OrderedDict.mem_of_get ha)).1
  constructor
  · intro hcheck
    obtain ⟨expected, hexpected, hrest⟩ := except_bind_eq_ok.mp hcheck
    -- the last branch of the six checks is the only one that does not raise
    split_ifs at hrest with hequal hseed hembedding hheads hshapes hpopular
    obtain ⟨a, ha⟩ := Document.exists_dict_of_eqNumbers (by simpa using hequal)
    rw [ha] at hexpected hequal
    have hagrees := (expected_iff (harchitecture a ha) r.architecture).mp
      ⟨expected, hexpected, by simpa using hequal⟩
    simp only [List.any_cons, List.any_nil, Bool.or_false, Bool.or_eq_true, decide_eq_true_eq,
      not_or, not_not] at hshapes
    refine ⟨⟨a, ha, hagrees⟩, not_not.mp hseed, embeddingMatches_iff.mp (by simpa using hembedding),
      hheads, hshapes.1, hshapes.2.1, hshapes.2.2, ?_⟩
    intro x hx
    rw [hx] at hpopular
    simpa using hpopular
  · intro hagrees
    obtain ⟨a, ha, harch⟩ := hagrees.architecture
    -- the six conditions fail in turn
    obtain ⟨expected, hexpected, hequal⟩ :=
      (expected_iff (harchitecture a ha) r.architecture).mpr harch
    refine except_bind_eq_ok.mpr ⟨expected, by rw [ha]; exact hexpected, ?_⟩
    have hembedding := embeddingMatches_iff.mpr hagrees.embedding
    have hpopular : (r.popularEmbedding.any fun popular =>
        decide (shapeOf popular ≠ [r.architecture.embeddingDimension])) = false := by
      cases hx : r.popularEmbedding with
      | none => rfl
      | some x => simpa using hagrees.popular x hx
    rw [if_neg (by simp [ha, hequal]), if_neg (by simp [hagrees.seed]),
      if_neg (by simp [hembedding]), if_neg hagrees.heads,
      if_neg (by simp [hagrees.query, hagrees.key, hagrees.value]),
      if_neg (by rw [hpopular]; decide)]
    rfl

omit [Field F] [LinearOrder F] in
theorem loadModel_eq_ok_iff {joblib : Joblib F} {fields : List (String × Document F)}
    {bytes : Bytes} {r : StoredRanker F} (hload : joblib.load bytes = .ok (.ranker r))
    {payload : Payload F} :
    loadModel joblib fields (some bytes) = .ok payload
      ↔ isText (checksum? fields) (joblib.sha256 bytes) = true ∧ .ranker r = payload := by
  unfold loadModel
  cases checksum? fields with
  | none => simp [isText]
  | some checksum =>
    dsimp only
    rw [hload]
    by_cases hchecksum : isText (some checksum) (joblib.sha256 bytes) = true <;> simp [hchecksum]

/-- **What is accepted**, of a model file that holds a ranker. -/
theorem loadArtifact_eq_ok_iff {joblib : Joblib F} {directory : Directory F} {bytes : Bytes}
    {r : StoredRanker F} (hmodel : directory.model = some bytes)
    (hload : joblib.load bytes = .ok (.ranker r)) {artifact : LoadedArtifact F} :
    loadArtifact joblib directory = .ok artifact
      ↔ ∃ fields h, directory.manifest = .ok ⟨.dict fields, h⟩
        ∧ artifact = .nrms r (.dict fields)
        ∧ isText (fields.lookup "artifact_schema_version") artifactSchemaVersion = true
        ∧ isText (fields.lookup "model_type") nrmsModelType = true
        ∧ isText (checksum? fields) (joblib.sha256 bytes) = true
        ∧ Agrees fields r := by
  constructor
  · intro hartifact
    unfold loadArtifact at hartifact
    split at hartifact
    · cases hartifact
    · rename_i fields hdistinct hmanifest
      split at hartifact
      · cases hartifact
      · rename_i hversion
        obtain ⟨⟨⟩, -, hartifact⟩ := except_bind_eq_ok.mp hartifact
        obtain ⟨payload, hpayload, hartifact⟩ := except_bind_eq_ok.mp hartifact
        rw [hmodel] at hpayload
        obtain ⟨hchecksum, rfl⟩ := (loadModel_eq_ok_iff hload).mp hpayload
        -- a ranker is a payload of an NRMS artifact only
        cases htype : isText (fields.lookup "model_type") nrmsModelType with
        | false =>
          rw [htype] at hartifact
          cases hartifact
        | true =>
          rw [htype] at hartifact
          cases hcheck : checkRanker fields r with
          | error e => simp [checkPayload, hcheck, Except.map] at hartifact
          | ok u =>
            have hequal : LoadedArtifact.nrms r (.dict fields) = artifact := by
              simpa [checkPayload, hcheck, Except.map] using hartifact
            exact ⟨fields, hdistinct, hmanifest, hequal.symm, by simpa using hversion, htype,
              hchecksum, (checkRanker_eq_ok_iff hdistinct).mp hcheck⟩
    · cases hartifact
  · rintro ⟨fields, hdistinct, hmanifest, rfl, hversion, htype, hchecksum, hagrees⟩
    have hpayload := (@loadModel_eq_ok_iff F joblib fields bytes r hload _).mpr
      ⟨hchecksum, rfl⟩
    have hcheck := (checkRanker_eq_ok_iff hdistinct).mpr hagrees
    unfold loadArtifact
    rw [hmanifest]
    dsimp only
    rw [if_neg (by simp [hversion]), htype, hmodel]
    refine except_bind_eq_ok.mpr ⟨(), rfl, ?_⟩
    refine except_bind_eq_ok.mpr ⟨_, hpayload, ?_⟩
    rw [checkPayload, hcheck]
    rfl

end Accept

/-! ### What is written is accepted -/

section Written

variable {F : Type} [Field F] [LinearOrder F]

omit [LinearOrder F] in
theorem ArchitectureAgrees.sortKeys {fields : List (String × Document F)}
    {a : StoredArchitecture F} (h : ArchitectureAgrees fields a)
    (hnodup : (fields.map Prod.fst).Nodup) :
    ArchitectureAgrees (Document.sortedFields fields) a where
  dimension := (Document.numberAt_sortedFields hnodup _).trans h.dimension
  heads := (Document.numberAt_sortedFields hnodup _).trans h.heads
  history := (Document.numberAt_sortedFields hnodup _).trans h.history
  scale := (Document.numberOr_sortedFields hnodup _ _).trans h.scale
  residual := (Document.numberOr_sortedFields hnodup _ _).trans h.residual
  names := fun name hname => h.names name ((Document.names_sortedFields fields).mem_iff.mp hname)

/-- A manifest and a payload agree in any order of the names. -/
theorem Agrees.sortKeys {fields : List (String × Document F)} {r : StoredRanker F}
    (h : Agrees fields r) (hdistinct : (Document.dict fields).Distinct) :
    Agrees (Document.sortedFields fields) r := by
  have hnodup := hdistinct.1
  have hvalue : ∀ name e, fields.lookup name = some (.dict e) → (e.map Prod.fst).Nodup :=
    fun name e he =>
      (Document.distinctFields_iff.mp hdistinct.2 _ (OrderedDict.mem_of_get he)).1
  obtain ⟨a, ha, hagrees⟩ := h.architecture
  obtain ⟨e, he, hdimension, v, hv, htruthy⟩ := h.embedding
  refine ⟨⟨Document.sortedFields a, ?_, hagrees.sortKeys (hvalue _ a ha)⟩,
    (Document.numberAt_sortedFields hnodup _).trans h.seed,
    ⟨Document.sortedFields e, ?_, ?_, v.sortKeys, ?_, ?_⟩, h.heads, h.query, h.key, h.value,
    h.popular⟩
  · rw [Document.lookup_sortedFields hnodup, ha]
    simp
  · rw [Document.lookup_sortedFields hnodup, he]
    simp
  · exact (Document.numberAt_sortedFields (hvalue _ e he) _).trans hdimension
  · rw [Document.lookup_sortedFields (hvalue _ e he), hv]
    rfl
  · rw [Document.isTruthy_sortKeys]
    exact htruthy

/-- Setting another name does not matter. -/
theorem Agrees.set {fields : OrderedDict String (Document F)} {r : StoredRanker F}
    (h : Agrees fields r) (v : Document F) : Agrees (fields.set "files" v) r := by
  have hget : ∀ name, name ≠ "files" →
      List.lookup name (fields.set "files" v) = fields.lookup name := by
    intro name hname
    have hset := OrderedDict.get_set fields "files" v name
    rw [if_neg hname] at hset
    exact hset
  refine ⟨?_, ?_, ?_, h.heads, h.query, h.key, h.value, h.popular⟩
  · rw [hget _ (by decide)]
    exact h.architecture
  · rw [numberAt, hget _ (by decide)]
    exact h.seed
  · rw [hget _ (by decide)]
    exact h.embedding

/-- **What is written is accepted.** -/
theorem load_write {joblib : Joblib F} {r : StoredRanker F} {manifest : Manifest F}
    (hload : joblib.load (joblib.dump r) = .ok (.ranker r))
    (hversion : manifest.1.lookup "artifact_schema_version" = some (.str artifactSchemaVersion))
    (htype : manifest.1.lookup "model_type" = some (.str nrmsModelType))
    (hagrees : Agrees manifest.1 r) :
    ∃ document, loadArtifact joblib (writeArtifact joblib r manifest)
      = .ok (.nrms r document) := by
  have hfiles := distinct_filesEntry joblib (joblib.dump r)
  have hset := @distinct_set F manifest.1 "files" _ manifest.2 hfiles
  have hsorted := hset.sortKeys
  rw [Document.sortKeys_dict] at hsorted
  -- what the reader looks up is what was set, in sorted dictionaries
  have hlookup : ∀ name, List.lookup name (Document.sortedFields
      (manifest.1.set "files" (filesEntry joblib (joblib.dump r))))
        = (if name = "files" then some (filesEntry joblib (joblib.dump r))
          else manifest.1.lookup name).map Document.sortKeys := by
    intro name
    rw [Document.lookup_sortedFields hset.1]
    exact congrArg _ (OrderedDict.get_set manifest.1 "files" _ name)
  refine ⟨_, (loadArtifact_eq_ok_iff rfl hload).mpr ⟨_, hsorted, ?_, rfl, ?_, ?_, ?_, ?_⟩⟩
  · exact congrArg Except.ok (Subtype.ext (Document.sortKeys_dict _))
  · rw [hlookup, if_neg (by decide), hversion]
    simp [isText, Document.sortKeys]
  · rw [hlookup, if_neg (by decide), htype]
    simp [isText, Document.sortKeys]
  · have hchecksum : checksum? (Document.sortedFields
        (manifest.1.set "files" (filesEntry joblib (joblib.dump r))))
          = some (.str (joblib.sha256 (joblib.dump r))) := by
      rw [checksum?, hlookup, if_pos rfl]
      show ((filesEntry joblib (joblib.dump r)).sortKeys.item modelFilename).bind
        (fun entry => entry.item "sha256") = _
      rw [Document.item_sortKeys hfiles]
      obtain ⟨-, hentry, -⟩ := hfiles
      exact Document.item_sortKeys hentry "sha256"
    simp [hchecksum, isText]
  · exact (hagrees.set _).sortKeys hset

/-- The heads of a ranker with a valid architecture. -/
theorem StoredRanker.Admitted.heads_pos {r : StoredRanker F} (h : r.Admitted) :
    0 < r.architecture.attentionHeads :=
  (StoredArchitecture.postInit_eq_ok_iff.mp h.postInit).2.2.1

/-- **The second writer**, whose manifest has all five names of the architecture. -/
theorem exportManifest_agrees {r : StoredRanker F} (h : r.Admitted) (output : Output)
    (trainingReport datasetMetadata datasetSha256 dependencyVersions : Parsed F)
    {encoderVersion : String} (hencoder : encoderVersion ≠ "") :
    Agrees (exportManifest r output trainingReport datasetMetadata datasetSha256
      dependencyVersions encoderVersion) r := by
  -- both optional names are written, so that both are read back
  refine ⟨⟨_, rfl, ⟨rfl, rfl, rfl, rfl, rfl, ?_⟩⟩, rfl, ⟨_, rfl, rfl, _, rfl, ?_⟩,
    h.heads_pos.ne', h.query, h.key, h.value, h.popular⟩
  · intro name hname
    exact hname
  · simpa [Document.isTruthy] using hencoder

theorem load_export {joblib : Joblib F} {r : StoredRanker F} (h : r.Admitted)
    (hload : joblib.load (joblib.dump r) = .ok (.ranker r)) {output : Output}
    (hfree : output.taken = false)
    (trainingReport datasetMetadata datasetSha256 dependencyVersions : Parsed F)
    {encoderVersion : String} (hencoder : encoderVersion ≠ "") :
    ∃ directory document,
      exportArtifact joblib r output trainingReport datasetMetadata datasetSha256
          dependencyVersions encoderVersion = .ok directory
        ∧ loadArtifact joblib directory = .ok (.nrms r document) := by
  have hagrees := exportManifest_agrees h output trainingReport datasetMetadata datasetSha256
    dependencyVersions hencoder
  obtain ⟨document, hdocument⟩ := @load_write F _ _ joblib r
    ⟨_, distinct_exportManifest r output trainingReport datasetMetadata datasetSha256
      dependencyVersions encoderVersion⟩ hload rfl rfl hagrees
  refine ⟨_, document, ?_, hdocument⟩
  rw [exportArtifact, hfree]
  rfl

end Written

section Trained

variable {lib : Library} {files : DatasetFiles} {seed : Int}

/-- **The first writer**, whose manifest leaves the two optional names out. -/
theorem trainManifest_agrees {metadata : Metadata} {epochs : Int} {checkpoint resume : Bool}
    {store : Option Checkpoint} {trained : Trained}
    (h : (trainNrmsFromDataset lib files metadata seed epochs checkpoint resume store).1
      = .ok trained) (output : Output) (dependencyVersions : Parsed ℝ) :
    Agrees (trainManifest lib files seed epochs output dependencyVersions trained)
      trained.ranker := by
  obtain ⟨p, r, harchitecture, hmetadata, hstored, hranker⟩ := exists_of_train h
  obtain ⟨-, hdimension⟩ := selectAttentionHeads_spec p.metadata.dimension
  have hadmitted : trained.ranker.Admitted := by
    rw [hranker]
    exact admitted_stored seed r
  have hsame : trained.ranker.architecture = trained.architecture := by
    rw [hranker, hstored]
    show r.architecture.stored seed = p.architecture.stored seed
    rw [harchitecture]
  have hdim : (trained.metadata.dimension : Int) = trained.architecture.embeddingDimension := by
    rw [hmetadata, hstored, NRMSArchitecture.stored, hdimension]
  refine ⟨⟨_, rfl, ⟨?_, ?_, ?_, ?_, ?_, ?_⟩⟩, ?_, ⟨_, rfl, ?_, _, rfl, ?_⟩,
    hadmitted.heads_pos.ne', hadmitted.query, hadmitted.key, hadmitted.value, hadmitted.popular⟩
  · rw [hsame]
    rfl
  · rw [hsame]
    rfl
  · rw [hsame]
    rfl
  -- an absent scale is read as 1, an absent residual as 0, and those of a run are these
  · rw [hsame, hstored]
    rfl
  · rw [hsame, hstored]
    rfl
  · intro name hname
    simp only [List.map_cons, List.map_nil, List.mem_cons, List.not_mem_nil, or_false] at hname
    rcases hname with rfl | rfl | rfl <;> decide
  · rw [hsame, hstored]
    rfl
  · rw [hsame, ← hdim]
    rfl
  · have hencoder := trained.metadata.encoderVersion_ne_empty
    simpa [Document.isTruthy] using hencoder

end Trained

/-- **Writing and loading.**  For every run that returns, the artifact it writes is loaded, with the
    ranker of the run; so is the artifact that is exported of an admitted ranker with a named
    encoder.  A directory whose model file holds a ranker is loaded exactly when its manifest is
    of an NRMS artifact, has the checksum of the file and agrees with the ranker; what is loaded is
    then that ranker.  The rankers that are written are those that `joblib` reads back. -/
theorem artifact_laws (joblib : Joblib ℝ) :
    (∀ (lib : Library) (files : DatasetFiles) (metadata : Metadata) (seed epochs : Int)
      (checkpoint resume : Bool) (store : Option Checkpoint) (output : Output)
      (dependencyVersions : Parsed ℝ) (trained : Trained),
      (trainNrmsFromDataset lib files metadata seed epochs checkpoint resume store).1
        = .ok trained →
      joblib.load (joblib.dump trained.ranker) = .ok (.ranker trained.ranker) →
      ∃ directory document,
        trainArtifact lib joblib files metadata seed epochs checkpoint resume store output
            dependencyVersions = .ok directory
          ∧ loadArtifact joblib directory = .ok (.nrms trained.ranker document))
      ∧ (∀ (r : StoredRanker ℝ) (output : Output)
        (trainingReport datasetMetadata datasetSha256 dependencyVersions : Parsed ℝ)
        (encoderVersion : String), r.Admitted → output.taken = false → encoderVersion ≠ "" →
        joblib.load (joblib.dump r) = .ok (.ranker r) →
        ∃ directory document,
          exportArtifact joblib r output trainingReport datasetMetadata datasetSha256
              dependencyVersions encoderVersion = .ok directory
            ∧ loadArtifact joblib directory = .ok (.nrms r document))
      ∧ ∀ (directory : Directory ℝ) (bytes : Bytes) (r : StoredRanker ℝ)
        (artifact : LoadedArtifact ℝ), directory.model = some bytes →
        joblib.load bytes = .ok (.ranker r) →
        (loadArtifact joblib directory = .ok artifact
          ↔ ∃ fields h, directory.manifest = .ok ⟨.dict fields, h⟩
            ∧ artifact = .nrms r (.dict fields)
            ∧ isText (fields.lookup "artifact_schema_version") artifactSchemaVersion = true
            ∧ isText (fields.lookup "model_type") nrmsModelType = true
            ∧ isText (checksum? fields) (joblib.sha256 bytes) = true
            ∧ Agrees fields r) := by
  refine ⟨?_, ?_, ?_⟩
  · intro lib files metadata seed epochs checkpoint resume store output dependencyVersions trained
      htrained hload
    obtain ⟨document, hdocument⟩ := @load_write ℝ _ _ joblib trained.ranker
      ⟨_, distinct_trainManifest lib files seed epochs output dependencyVersions trained⟩ hload
      rfl rfl (trainManifest_agrees htrained output dependencyVersions)
    refine ⟨_, document, ?_, hdocument⟩
    rw [trainArtifact, htrained]
    rfl
  · intro r output trainingReport datasetMetadata datasetSha256 dependencyVersions encoderVersion
      hadmitted hfree hencoder hload
    exact load_export hadmitted hload hfree trainingReport datasetMetadata datasetSha256
      dependencyVersions hencoder
  · intro directory bytes r artifact hmodel hload
    exact loadArtifact_eq_ok_iff hmodel hload

/-- A model file of one byte, which holds this ranker. -/
def smallJoblib (r : StoredRanker ℝ) : Joblib ℝ where
  sha256 _ := "4bf5122f"
  dump _ := [1]
  load _ := .ok (.ranker r)

/-- A dictionary without names. -/
def noVersions : Parsed ℝ := ⟨.dict [], List.nodup_nil, trivial⟩

def smallOutput : Output := ⟨"artifacts/model", "artifacts", "model", false⟩

theorem artifact_laws_small :
    ∃ trained : Trained,
      (trainNrmsFromDataset smallLibrary ⟨[1], [1]⟩ smallMetadata 7 1 false false none).1
          = .ok trained
        ∧ (∃ directory document,
          trainArtifact smallLibrary (smallJoblib trained.ranker) ⟨[1], [1]⟩ smallMetadata 7 1
              false false none smallOutput noVersions = .ok directory
            ∧ loadArtifact (smallJoblib trained.ranker) directory
              = .ok (.nrms trained.ranker document))
        ∧ (∃ directory document,
          exportArtifact (smallJoblib trained.ranker) trained.ranker smallOutput noVersions
              noVersions noVersions noVersions "encoder-v1" = .ok directory
            ∧ loadArtifact (smallJoblib trained.ranker) directory
              = .ok (.nrms trained.ranker document))
        ∧ ∀ artifact, loadArtifact (smallJoblib trained.ranker) ⟨.error "no manifest", some [1]⟩
          ≠ .ok artifact := by
  obtain ⟨p, r, hp, hr, hexamples⟩ := prepare_small ⟨[1], [1]⟩
  have htrain := train_eq (by decide : (0 : Int) < 1) hp hr hexamples false none
  have hok := congrArg Prod.fst htrain
  obtain ⟨p', r', -, -, -, hranker⟩ := exists_of_train hok
  obtain ⟨hwritten, hexported, haccepted⟩ := artifact_laws (smallJoblib
    (p.trained smallLibrary 7 0 _).ranker)
  refine ⟨_, hok, ?_, ?_, ?_⟩
  · exact hwritten smallLibrary ⟨[1], [1]⟩ smallMetadata 7 1 false false none smallOutput
      noVersions _ hok rfl
  · refine hexported _ smallOutput noVersions noVersions noVersions noVersions "encoder-v1" ?_ rfl
      (by decide) rfl
    rw [hranker]
    exact admitted_stored 7 r'
  · intro artifact hartifact
    obtain ⟨fields, h, hmanifest, -⟩ := (haccepted _ [1] _ artifact rfl rfl).mp hartifact
    cases hmanifest

end Oecophylla.Ranker
