import Oecophylla.Ranker.Stored
import Oecophylla.Ranker.TrainingRows

namespace Oecophylla.Ranker

open Dataset (SplitName)
open Lib (Example NdArray except_bind_eq_ok)

/-!
# Training with checkpoints — `_train_nrms_from_dataset`

* `Library` — what the trainer calls: `sha256`, the table reader, the generator, the fitter;
* `Contract`, `validateCheckpointContract` — what a checkpoint must agree with;
* `Checkpoint`, `saveNrmsCheckpoint`, `loadNrmsCheckpoint` — the checkpoint file;
* `trainNrmsFromDataset` — a run, with the checkpoint file before and after it;
* `runEpochs_eq` — the loop: the ranker after some epochs, and the checkpoint of the last;
* `load_save` — a checkpoint of a run gives its ranker back;
* `resume_laws` — resumed and uninterrupted runs agree; other checkpoints are rejected.
-/

/-! ### Files and contracts -/

abbrev Bytes := List UInt8

/-- The embeddings of a dataset. -/
abbrev EmbeddingOf (dimension : Nat) : Type :=
  Embedding ℝ (selectAttentionHeads dimension) (dimension / selectAttentionHeads dimension)

/-- The projections of a dataset. -/
abbrev ProjectionOf (dimension : Nat) : Type :=
  Projection ℝ (selectAttentionHeads dimension) (dimension / selectAttentionHeads dimension)

/-- The rankers of a dataset. -/
abbrev RankerOf (dimension : Nat) : Type :=
  NRMSLikeRanker ℝ (selectAttentionHeads dimension) (dimension / selectAttentionHeads dimension)

/-- What the trainer calls: `hashlib.sha256`, `pq.read_table`, the three draws of
    `np.random.default_rng(seed)`, and the fit of the calibration. -/
structure Library where
  sha256 : Bytes → String
  readTable : (dimension : Nat) → Bytes → Except String (Table (EmbeddingOf dimension))
  normal : (seed : Int) → (dimension : Nat) →
    Except String (ProjectionOf dimension × ProjectionOf dimension × ProjectionOf dimension)
  fit : List Example → ℝ × ℝ

/-- The two files of a dataset. -/
structure DatasetFiles where
  parquet : Bytes
  metadata : Bytes
  deriving DecidableEq

/-- `NRMS_LEARNING_RATE`. -/
def nrmsLearningRate : ℚ := 1 / 10

/-- `_checkpoint_contract`. -/
structure Contract where
  checkpointSchemaVersion : String
  datasetSha256 : String
  metadataSha256 : String
  embeddingDimension : Int
  attentionHeads : Int
  historyLength : Int
  seed : Int
  encoderVersion : String
  historySchemaVersion : String
  labelDefinitionVersion : String
  learningRate : ℚ
  deriving DecidableEq, Repr

/-- A value of the contract. -/
inductive ContractValue where
  | str (s : String)
  | int (z : Int)
  | float (x : ℚ)
  deriving DecidableEq, Repr

/-- `contract.items()`. -/
def Contract.items (c : Contract) : List (String × ContractValue) :=
  [("checkpoint_schema_version", .str c.checkpointSchemaVersion),
    ("dataset_sha256", .str c.datasetSha256),
    ("metadata_sha256", .str c.metadataSha256),
    ("embedding_dimension", .int c.embeddingDimension),
    ("attention_heads", .int c.attentionHeads),
    ("history_length", .int c.historyLength),
    ("seed", .int c.seed),
    ("encoder_version", .str c.encoderVersion),
    ("history_schema_version", .str c.historySchemaVersion),
    ("label_definition_version", .str c.labelDefinitionVersion),
    ("learning_rate", .float c.learningRate)]

/-- `labels`. -/
def contractLabels : List (String × String) :=
  [("checkpoint_schema_version", "schema version"),
    ("dataset_sha256", "dataset checksum"),
    ("metadata_sha256", "metadata checksum"),
    ("embedding_dimension", "embedding dimension"),
    ("attention_heads", "attention heads"),
    ("history_length", "history length"),
    ("seed", "seed"),
    ("encoder_version", "encoder version"),
    ("history_schema_version", "history schema version"),
    ("label_definition_version", "label definition version"),
    ("learning_rate", "learning rate")]

/-- `_validate_checkpoint_contract(actual, expected)`: the first item that differs raises. -/
def validateCheckpointContract (actual expected : Contract) : Except TrainError Unit :=
  match expected.items.find? fun item => actual.items.lookup item.1 ≠ some item.2 with
  | some item =>
    let label := (contractLabels.lookup item.1).getD item.1
    .error (.datasetValidation
      s!"checkpoint {label} does not match the requested training run")
  | none => .ok ()

theorem validateCheckpointContract_eq_ok_iff {actual expected : Contract} :
    validateCheckpointContract actual expected = .ok () ↔ actual = expected := by
  -- no item differs exactly when no field does
  have hnone : (expected.items.find? fun item => actual.items.lookup item.1 ≠ some item.2) = none
      ↔ actual = expected := by
    rw [List.find?_eq_none]
    constructor
    · intro h
      have hvalue : ∀ item ∈ expected.items, actual.items.lookup item.1 = some item.2 :=
        fun item hitem => by simpa using h item hitem
      simp only [Contract.items, List.forall_mem_cons] at hvalue
      simp [List.lookup_cons] at hvalue
      cases actual
      cases expected
      simp_all
    · rintro rfl item hitem
      simp only [Contract.items, List.mem_cons, List.not_mem_nil, or_false] at hitem
      rcases hitem with rfl | rfl | rfl | rfl | rfl | rfl | rfl | rfl | rfl | rfl | rfl <;>
        simp [Contract.items, List.lookup_cons]
  rw [← hnone, validateCheckpointContract]
  split
  · rename_i item hitem
    rw [hitem]
    simp
  · rename_i hitem
    rw [hitem]
    simp

/-! ### Checkpoints -/

/-- A checkpoint file. -/
structure Checkpoint where
  queryProjection : NdArray ℝ
  keyProjection : NdArray ℝ
  valueProjection : NdArray ℝ
  popularEmbedding : NdArray ℝ
  epoch : Int
  contract : Contract

/-- `_save_nrms_checkpoint(path, ranker, epoch, contract)`. -/
noncomputable def saveNrmsCheckpoint {heads width : Nat} (ranker : NRMSLikeRanker ℝ heads width)
    (epoch : Int) (contract : Contract) : Checkpoint where
  queryProjection := .ofTensor ranker.queryProjection
  keyProjection := .ofTensor ranker.keyProjection
  valueProjection := .ofTensor ranker.valueProjection
  popularEmbedding := .ofVector (ranker.popularEmbedding.getD 0)
  epoch := epoch
  contract := contract

/-- `_load_nrms_checkpoint(path)`; what the file does not have is filled with constants. -/
noncomputable def loadNrmsCheckpoint (c : Checkpoint) :
    Except TrainError (StoredRanker ℝ × Int × Contract) :=
  let architecture : StoredArchitecture ℝ :=
    { embeddingDimension := c.contract.embeddingDimension
      attentionHeads := c.contract.attentionHeads
      historyLength := c.contract.historyLength
      seed := c.contract.seed
      positionScale := 1
      semanticResidual := 0 }
  match architecture.postInit with
  | .error text => .error (.valueError text)
  | .ok architecture =>
    .ok ({
      architecture
      queryProjection := c.queryProjection
      keyProjection := c.keyProjection
      valueProjection := c.valueProjection
      calibrationScale := 1
      calibrationBias := 0
      popularEmbedding := some c.popularEmbedding }, c.epoch, c.contract)

/-! ### A run -/

/-- What a run reads of its dataset before the first epoch. -/
structure Prepared where
  metadata : TrainingMetadata
  rows : SplitRows (EmbeddingOf metadata.dimension)

/-- Reading and validating the dataset. -/
def prepare (lib : Library) (files : DatasetFiles) (metadata : Metadata) :
    Except TrainError Prepared := do
  let metadata ← validateV2Metadata metadata
  let table ← readV2Rows (lib.readTable metadata.dimension files.parquet) metadata
  let rows ← validateV2Contract metadata.historySchemaVersion table
  let rows ← splitV2Rows rows
  pure ⟨metadata, rows⟩

namespace Prepared

variable (p : Prepared)

/-- `architecture`, whose seed is that of the run. -/
noncomputable def architecture : NRMSArchitecture ℝ (selectAttentionHeads p.metadata.dimension)
    (p.metadata.dimension / selectAttentionHeads p.metadata.dimension) where
  historyLength := selectHistoryLength p.rows.train
  positionScale := 1
  semanticResidual := 0
  heads_pos := (selectAttentionHeads_spec p.metadata.dimension).1
  width_pos := by
    obtain ⟨-, hmul⟩ := selectAttentionHeads_spec p.metadata.dimension
    have hpos := p.metadata.dimension_pos
    rw [← hmul] at hpos
    exact Nat.pos_of_mul_pos_left hpos
  positionScale_nonneg := zero_le_one
  semanticResidual_mem := zero_semanticResidual

/-- `_checkpoint_contract(dataset, metadata, architecture)`. -/
def checkpointContract (lib : Library) (files : DatasetFiles) (seed : Int) : Contract where
  checkpointSchemaVersion := "nrms-training-checkpoint-v1"
  datasetSha256 := lib.sha256 files.parquet
  metadataSha256 := lib.sha256 files.metadata
  embeddingDimension := p.metadata.dimension
  attentionHeads := selectAttentionHeads p.metadata.dimension
  historyLength := selectHistoryLength p.rows.train
  seed := seed
  encoderVersion := p.metadata.encoderVersion
  historySchemaVersion := p.metadata.historySchemaVersion
  labelDefinitionVersion := p.metadata.labelDefinitionVersion
  learningRate := nrmsLearningRate

/-- `NRMSLikeRanker.initialize(architecture, popular_embedding=…)`. -/
noncomputable def initialRanker (lib : Library) (seed : Int) :
    Except TrainError (RankerOf p.metadata.dimension) :=
  match lib.normal seed p.metadata.dimension with
  | .error text => .error (.valueError text)
  | .ok (query, key, value) =>
    .ok {
      architecture := p.architecture
      queryProjection := query
      keyProjection := key
      valueProjection := value
      calibrationScale := 1
      calibrationBias := 0
      popularEmbedding := some (computePopularEmbedding p.rows.train) }

/-- The ranker of a checkpoint, and its epoch; arrays of other shapes make numpy raise. -/
noncomputable def resumeFrom (lib : Library) (files : DatasetFiles) (seed epochs : Int)
    (checkpoint : Option Checkpoint) :
    Except TrainError (RankerOf p.metadata.dimension × Int) :=
  match checkpoint with
  | none => .error (.datasetValidation "resume requested but checkpoint file does not exist")
  | some c => do
    let (ranker, startEpoch, stored) ← loadNrmsCheckpoint c
    validateCheckpointContract stored (p.checkpointContract lib files seed)
    if epochs ≤ startEpoch then
      throw (.datasetValidation "checkpoint epoch must be lower than the requested target epoch")
    match ranker.typed? _ _ with
    | none => throw (.valueError "operands could not be broadcast together")
    | some ranker => pure (ranker, startEpoch)

/-- The ranker that a run starts with, and its epoch. -/
noncomputable def start (lib : Library) (files : DatasetFiles) (seed epochs : Int)
    (checkpoint resume : Bool) (store : Option Checkpoint) :
    Except TrainError (RankerOf p.metadata.dimension × Int) :=
  if resume then p.resumeFrom lib files seed epochs (if checkpoint then store else none)
  else (p.initialRanker lib seed).map fun ranker => (ranker, 0)

end Prepared

section Epochs

variable {heads width : Nat} (examples : List (PairwiseExample ℝ heads width))
  (contract : Contract) (checkpoint : Bool)

/-- One round of the loop over the epochs, with the checkpoint file. -/
noncomputable def runEpoch (s : NRMSLikeRanker ℝ heads width × Option Checkpoint) (epoch : Int) :
    NRMSLikeRanker ℝ heads width × Option Checkpoint :=
  let ranker := trainPairwiseEpoch realFunctions s.1 examples (nrmsLearningRate : ℝ)
  (ranker, if checkpoint then some (saveNrmsCheckpoint ranker (epoch + 1) contract) else s.2)

/-- `for epoch in range(start_epoch, epochs)`. -/
noncomputable def runEpochs (startEpoch epochs : Int)
    (s : NRMSLikeRanker ℝ heads width × Option Checkpoint) :
    NRMSLikeRanker ℝ heads width × Option Checkpoint :=
  ((List.range (epochs - startEpoch).toNat).map fun i : Nat => startEpoch + (i : Int)).foldl
    (runEpoch examples contract checkpoint) s

end Epochs

/-- What a run returns. -/
structure Trained where
  metadata : TrainingMetadata
  architecture : StoredArchitecture ℝ
  ranker : StoredRanker ℝ
  startEpoch : Int
  pairwiseExamples : Nat
  rowCounts : SplitName → Nat

/-- The end of a run: the calibration, on the validation rows. -/
noncomputable def Prepared.trained (p : Prepared) (lib : Library) (seed startEpoch : Int)
    (ranker : RankerOf p.metadata.dimension) : Trained where
  metadata := p.metadata
  architecture := p.architecture.stored seed
  ranker := (calibrateRanker lib.fit ranker
    (p.rows.validation.map TrainingRow.forCalibration)).stored seed
  startEpoch := startEpoch
  pairwiseExamples := (buildPairwiseExamples p.rows.train).length
  rowCounts split := match split with
    | .train => p.rows.train.length
    | .validation => p.rows.validation.length
    | .test => p.rows.test.length

/-- `_train_nrms_from_dataset`, before it writes the artifact; `store` is the checkpoint file
    before the run, and the second component what it is afterwards. -/
noncomputable def trainNrmsFromDataset (lib : Library) (files : DatasetFiles)
    (metadata : Metadata) (seed epochs : Int) (checkpoint resume : Bool)
    (store : Option Checkpoint) : Except TrainError Trained × Option Checkpoint :=
  if epochs ≤ 0 then (.error (.datasetValidation "epochs must be positive"), store)
  else
    match prepare lib files metadata with
    | .error e => (.error e, store)
    | .ok p =>
      match p.start lib files seed epochs checkpoint resume store with
      | .error e => (.error e, store)
      | .ok (ranker, startEpoch) =>
        let examples := buildPairwiseExamples p.rows.train
        if examples.isEmpty then
          (.error (.datasetValidation "train split has no eligible positive/negative pairs"), store)
        else
          let s := runEpochs examples (p.checkpointContract lib files seed) checkpoint startEpoch
            epochs (ranker, store)
          (.ok (p.trained lib seed startEpoch s.1), s.2)

/-! ### Epochs -/

section Epochs

variable {heads width : Nat} {examples : List (PairwiseExample ℝ heads width)}

/-- An epoch changes the projections only. -/
structure SameRest (r r' : NRMSLikeRanker ℝ heads width) : Prop where
  architecture : r'.architecture = r.architecture
  scale : r'.calibrationScale = r.calibrationScale
  bias : r'.calibrationBias = r.calibrationBias
  popular : r'.popularEmbedding = r.popularEmbedding

/-- The ranker after an epoch. -/
noncomputable def step (examples : List (PairwiseExample ℝ heads width))
    (r : NRMSLikeRanker ℝ heads width) : NRMSLikeRanker ℝ heads width :=
  trainPairwiseEpoch realFunctions r examples (nrmsLearningRate : ℝ)

theorem sameRest_step (r : NRMSLikeRanker ℝ heads width) : SameRest r (step examples r) := by
  unfold step trainPairwiseEpoch
  dsimp only
  split
  · exact ⟨rfl, rfl, rfl, rfl⟩
  · exact ⟨rfl, rfl, rfl, rfl⟩

theorem sameRest_iterate (r : NRMSLikeRanker ℝ heads width) (count : Nat) :
    SameRest r ((step examples)^[count] r) := by
  induction count with
  | zero => exact ⟨rfl, rfl, rfl, rfl⟩
  | succ count ih =>
    rw [Function.iterate_succ_apply']
    -- the last epoch, after the others
    have hstep := @sameRest_step heads width examples ((step examples)^[count] r)
    exact ⟨hstep.architecture.trans ih.architecture, hstep.scale.trans ih.scale,
      hstep.bias.trans ih.bias, hstep.popular.trans ih.popular⟩

/-- **The loop.**  The ranker after the epochs, and the checkpoint of the last of them. -/
theorem runEpochs_eq (contract : Contract) (checkpoint : Bool) {startEpoch epochs : Int}
    (hlt : startEpoch < epochs) (r : NRMSLikeRanker ℝ heads width) (store : Option Checkpoint) :
    runEpochs examples contract checkpoint startEpoch epochs (r, store)
      = ((step examples)^[(epochs - startEpoch).toNat] r,
        if checkpoint then
          some (saveNrmsCheckpoint ((step examples)^[(epochs - startEpoch).toNat] r) epochs
            contract)
        else store) := by
  -- the induction is on the number of rounds; there is at least one
  have hrounds : ∀ count : Nat,
      ((List.range (count + 1)).map fun i : Nat => startEpoch + (i : Int)).foldl
          (runEpoch examples contract checkpoint) (r, store)
        = ((step examples)^[count + 1] r,
          if checkpoint then
            some (saveNrmsCheckpoint ((step examples)^[count + 1] r)
              (startEpoch + (count + 1 : Nat)) contract)
          else store) := by
    intro count
    induction count with
    | zero => cases checkpoint <;> simp [runEpoch, step]
    | succ count ih =>
      rw [List.range_succ, List.map_append, List.foldl_append, ih]
      -- the last round, at the epoch of its number
      have hepoch : startEpoch + ((count + 1 : Nat) : Int) + 1
          = startEpoch + ((count + 1 + 1 : Nat) : Int) := by omega
      rw [List.map_singleton, List.foldl_cons, List.foldl_nil, runEpoch, hepoch,
        Function.iterate_succ_apply' _ (count + 1)]
      cases checkpoint <;> rfl
  obtain ⟨count, hcount⟩ : ∃ count : Nat, (epochs - startEpoch).toNat = count + 1 :=
    ⟨(epochs - startEpoch).toNat - 1, by omega⟩
  have hend : startEpoch + ((count + 1 : Nat) : Int) = epochs := by omega
  rw [runEpochs, hcount, hrounds, hend]

end Epochs

/-! ### Resuming -/

section Resume

variable {lib : Library} {files : DatasetFiles} {seed : Int} {p : Prepared}

/-- What the checkpoint does not have is as it is in every ranker of the run. -/
structure Fresh (p : Prepared) (r : RankerOf p.metadata.dimension) : Prop where
  architecture : r.architecture = p.architecture
  scale : r.calibrationScale = 1
  bias : r.calibrationBias = 0
  popular : r.popularEmbedding = some (computePopularEmbedding p.rows.train)

theorem fresh_initialRanker {r : RankerOf p.metadata.dimension}
    (h : p.initialRanker lib seed = .ok r) : Fresh p r := by
  unfold Prepared.initialRanker at h
  split at h
  · cases h
  · obtain rfl := Except.ok.inj h
    exact ⟨rfl, rfl, rfl, rfl⟩

theorem Fresh.iterate {r : RankerOf p.metadata.dimension} (h : Fresh p r)
    (examples : List (PairwiseExample ℝ _ _)) (count : Nat) :
    Fresh p ((step examples)^[count] r) := by
  have hrest := @sameRest_iterate _ _ examples r count
  exact ⟨hrest.architecture.trans h.architecture, hrest.scale.trans h.scale,
    hrest.bias.trans h.bias, hrest.popular.trans h.popular⟩

/-- The architecture that the loader reads from the contract of a run. -/
theorem contract_architecture :
    ({
      embeddingDimension := (p.checkpointContract lib files seed).embeddingDimension
      attentionHeads := (p.checkpointContract lib files seed).attentionHeads
      historyLength := (p.checkpointContract lib files seed).historyLength
      seed := (p.checkpointContract lib files seed).seed
      positionScale := 1
      semanticResidual := 0 } : StoredArchitecture ℝ) = p.architecture.stored seed := by
  obtain ⟨-, hdimension⟩ := selectAttentionHeads_spec p.metadata.dimension
  rw [NRMSArchitecture.stored, hdimension]
  rfl

/-- **A checkpoint of a run** gives its ranker back, with the epoch and the contract. -/
theorem load_save {r : RankerOf p.metadata.dimension} (h : Fresh p r) (epoch : Int) :
    loadNrmsCheckpoint (saveNrmsCheckpoint r epoch (p.checkpointContract lib files seed))
      = .ok (r.stored seed, epoch, p.checkpointContract lib files seed) := by
  have harchitecture := @contract_architecture lib files seed p
  rw [← h.architecture] at harchitecture
  have hpopular : some (NdArray.ofVector (r.popularEmbedding.getD 0))
      = (r.stored seed).popularEmbedding := by
    show _ = r.popularEmbedding.map NdArray.ofVector
    rw [h.popular]
    rfl
  -- the architecture of a ranker passes its checks again
  have hpost : (r.stored seed).architecture.postInit = .ok (r.stored seed).architecture :=
    (admitted_stored seed r).postInit
  unfold loadNrmsCheckpoint
  simp only [saveNrmsCheckpoint]
  rw [harchitecture, show r.architecture.stored seed = (r.stored seed).architecture from rfl,
    hpost, hpopular, ← h.scale, ← h.bias]
  rfl

/-- A run that resumes from a checkpoint of a run on its dataset goes on with its ranker. -/
theorem resumeFrom_save {r : RankerOf p.metadata.dimension} (h : Fresh p r) {epoch epochs : Int}
    (hlt : epoch < epochs) :
    p.resumeFrom lib files seed epochs
        (some (saveNrmsCheckpoint r epoch (p.checkpointContract lib files seed)))
      = .ok (r, epoch) := by
  have hcontract : validateCheckpointContract (p.checkpointContract lib files seed)
      (p.checkpointContract lib files seed) = .ok () :=
    validateCheckpointContract_eq_ok_iff.mpr rfl
  unfold Prepared.resumeFrom
  refine except_bind_eq_ok.mpr ⟨_, load_save h epoch, ?_⟩
  refine except_bind_eq_ok.mpr ⟨(), hcontract, ?_⟩
  rw [if_neg (not_le.mpr hlt)]
  simp only [typed?_stored]
  rfl

/-- What the loader fills in. -/
theorem eq_of_loadNrmsCheckpoint {c : Checkpoint} {ranker : StoredRanker ℝ} {epoch : Int}
    {contract : Contract} (h : loadNrmsCheckpoint c = .ok (ranker, epoch, contract)) :
    c.epoch = epoch ∧ c.contract = contract ∧ ranker.architecture = {
      embeddingDimension := c.contract.embeddingDimension
      attentionHeads := c.contract.attentionHeads
      historyLength := c.contract.historyLength
      seed := c.contract.seed
      positionScale := 1
      semanticResidual := 0 } := by
  unfold loadNrmsCheckpoint at h
  dsimp only at h
  split at h
  · cases h
  · rename_i a ha
    obtain ⟨rfl, -⟩ := StoredArchitecture.postInit_eq_ok_iff.mp ha
    obtain ⟨rfl, rfl, rfl⟩ : _ ∧ c.epoch = epoch ∧ c.contract = contract := by
      simpa using h
    exact ⟨rfl, rfl, rfl⟩

/-- **A checkpoint that a run takes up** is of its contract, and of an epoch below its target. -/
theorem eq_of_resumeFrom {n epoch : Int} {store : Option Checkpoint}
    {r : RankerOf p.metadata.dimension}
    (h : p.resumeFrom lib files seed n store = .ok (r, epoch)) :
    ∃ c, store = some c ∧ c.contract = p.checkpointContract lib files seed ∧ c.epoch = epoch
      ∧ epoch < n ∧ r.architecture = p.architecture := by
  cases store with
  | none => cases h
  | some c =>
    unfold Prepared.resumeFrom at h
    obtain ⟨⟨ranker, startEpoch, stored⟩, hload, h⟩ := except_bind_eq_ok.mp h
    dsimp only at h
    obtain ⟨⟨⟩, hvalid, hrest⟩ := except_bind_eq_ok.mp h
    obtain ⟨rfl, rfl, hranker⟩ := eq_of_loadNrmsCheckpoint hload
    have hcontract := validateCheckpointContract_eq_ok_iff.mp hvalid
    -- the contract fixes what the loader fills in
    rw [hcontract, contract_architecture] at hranker
    split at hrest
    · cases hrest
    · rename_i hlt
      split at hrest
      · cases hrest
      · rename_i typed htyped
        obtain ⟨rfl, rfl⟩ := Prod.mk.inj (Except.ok.inj hrest)
        have harchitecture := architecture_of_typed? htyped
        rw [hranker, typed?_stored_architecture] at harchitecture
        exact ⟨c, rfl, hcontract, rfl, not_le.mp hlt, (Option.some.inj harchitecture).symm⟩

@[simp] theorem start_resume (epochs : Int) (store : Option Checkpoint) :
    p.start lib files seed epochs true true store = p.resumeFrom lib files seed epochs store := rfl

@[simp] theorem start_fresh (epochs : Int) (checkpoint : Bool) (store : Option Checkpoint) :
    p.start lib files seed epochs checkpoint false store
      = (p.initialRanker lib seed).map fun ranker => (ranker, 0) := rfl

/-- A run starts below its target, with a ranker of its architecture. -/
theorem eq_of_start {epochs startEpoch : Int} {checkpoint resume : Bool}
    {store : Option Checkpoint} {r : RankerOf p.metadata.dimension} (hpos : 0 < epochs)
    (h : p.start lib files seed epochs checkpoint resume store = .ok (r, startEpoch)) :
    startEpoch < epochs ∧ r.architecture = p.architecture := by
  cases resume with
  | true =>
    -- without a checkpoint file there is nothing to take up
    obtain ⟨c, -, -, -, hlt, harchitecture⟩ := eq_of_resumeFrom h
    exact ⟨hlt, harchitecture⟩
  | false =>
    rw [start_fresh] at h
    cases hinitial : p.initialRanker lib seed with
    | error e =>
      rw [hinitial] at h
      cases h
    | ok initial =>
      rw [hinitial] at h
      obtain ⟨rfl, rfl⟩ := Prod.mk.inj (Except.ok.inj h)
      exact ⟨hpos, (fresh_initialRanker hinitial).architecture⟩

/-- **A run that returns**: its dataset, its start, and the epochs from there. -/
theorem train_eq_ok_iff {metadata : Metadata} {epochs : Int} {checkpoint resume : Bool}
    {store store' : Option Checkpoint} {trained : Trained} :
    trainNrmsFromDataset lib files metadata seed epochs checkpoint resume store
        = (.ok trained, store')
      ↔ 0 < epochs ∧ ∃ p r startEpoch, prepare lib files metadata = .ok p
        ∧ p.start lib files seed epochs checkpoint resume store = .ok (r, startEpoch)
        ∧ (buildPairwiseExamples p.rows.train).isEmpty = false
        ∧ trained = p.trained lib seed startEpoch
          ((step (buildPairwiseExamples p.rows.train))^[(epochs - startEpoch).toNat] r)
        ∧ store' = if checkpoint then
            some (saveNrmsCheckpoint
              ((step (buildPairwiseExamples p.rows.train))^[(epochs - startEpoch).toNat] r)
              epochs (p.checkpointContract lib files seed))
          else store := by
  unfold trainNrmsFromDataset
  constructor
  · intro h
    split at h
    · cases h
    · rename_i hpos
      split at h
      · cases h
      · rename_i p hp
        split at h
        · cases h
        · rename_i r startEpoch hstart
          dsimp only at h
          split at h
          · cases h
          · rename_i hexamples
            -- the loop has a round, so that it leaves a checkpoint
            have hlt := (eq_of_start (not_le.mp hpos) hstart).1
            rw [runEpochs_eq _ _ hlt] at h
            obtain ⟨htrained, hstore⟩ := Prod.mk.inj h
            exact ⟨not_le.mp hpos, p, r, startEpoch, hp, hstart, by simpa using hexamples,
              (Except.ok.inj htrained).symm, hstore.symm⟩
  · rintro ⟨hpos, p, r, startEpoch, hp, hstart, hexamples, rfl, rfl⟩
    have hlt := (eq_of_start hpos hstart).1
    rw [if_neg (not_le.mpr hpos), hp]
    dsimp only
    rw [hstart]
    dsimp only
    rw [if_neg (by simp [hexamples]), runEpochs_eq _ _ hlt]

theorem calibrateRanker_architecture {heads width : Nat} (fit : List Example → ℝ × ℝ)
    (r : NRMSLikeRanker ℝ heads width) (rows : List (ValidationRow heads width)) :
    (calibrateRanker fit r rows).architecture = r.architecture := by
  unfold calibrateRanker
  dsimp only
  split
  · rfl
  · rfl

/-- **What a run returns**: a ranker of the run's architecture. -/
theorem exists_of_train {metadata : Metadata} {epochs : Int} {checkpoint resume : Bool}
    {store : Option Checkpoint} {trained : Trained}
    (h : (trainNrmsFromDataset lib files metadata seed epochs checkpoint resume store).1
      = .ok trained) :
    ∃ (p : Prepared) (r : RankerOf p.metadata.dimension), r.architecture = p.architecture
      ∧ trained.metadata = p.metadata
      ∧ trained.architecture = p.architecture.stored seed
      ∧ trained.ranker = r.stored seed := by
  obtain ⟨hpos, p, r, startEpoch, -, hstart, -, rfl, -⟩ := train_eq_ok_iff.mp (Prod.ext h rfl)
  refine ⟨p, _, ?_, rfl, rfl, rfl⟩
  rw [calibrateRanker_architecture]
  exact (sameRest_iterate _ _).architecture.trans (eq_of_start hpos hstart).2

/-- A run from the beginning that returns, and the checkpoint that it leaves. -/
theorem eq_of_train {metadata : Metadata} {epochs : Int} {store store' : Option Checkpoint}
    {trained : Trained}
    (h : trainNrmsFromDataset lib files metadata seed epochs true false store
      = (.ok trained, store')) :
    ∃ p r, prepare lib files metadata = .ok p ∧ p.initialRanker lib seed = .ok r
      ∧ (buildPairwiseExamples p.rows.train).isEmpty = false
      ∧ store' = some (saveNrmsCheckpoint
          ((step (buildPairwiseExamples p.rows.train))^[epochs.toNat] r) epochs
          (p.checkpointContract lib files seed)) := by
  obtain ⟨-, p, r, startEpoch, hp, hstart, hexamples, -, hstore⟩ := train_eq_ok_iff.mp h
  rw [start_fresh] at hstart
  cases hr : p.initialRanker lib seed with
  | error e =>
    rw [hr] at hstart
    cases hstart
  | ok initial =>
    rw [hr] at hstart
    obtain ⟨rfl, rfl⟩ := Prod.mk.inj (Except.ok.inj hstart)
    rw [if_pos rfl, sub_zero] at hstore
    exact ⟨p, initial, hp, hr, hexamples, hstore⟩

/-- A run from the beginning. -/
theorem train_eq {metadata : Metadata} {epochs : Int} (hpos : 0 < epochs)
    {r : RankerOf p.metadata.dimension} (hp : prepare lib files metadata = .ok p)
    (hr : p.initialRanker lib seed = .ok r)
    (hexamples : (buildPairwiseExamples p.rows.train).isEmpty = false) (checkpoint : Bool)
    (store : Option Checkpoint) :
    trainNrmsFromDataset lib files metadata seed epochs checkpoint false store
      = (.ok (p.trained lib seed 0
          ((step (buildPairwiseExamples p.rows.train))^[epochs.toNat] r)),
        if checkpoint then
          some (saveNrmsCheckpoint
            ((step (buildPairwiseExamples p.rows.train))^[epochs.toNat] r) epochs
            (p.checkpointContract lib files seed))
        else store) := by
  have hstart : p.start lib files seed epochs checkpoint false store = .ok (r, 0) := by
    rw [start_fresh, hr]
    rfl
  exact train_eq_ok_iff.mpr ⟨hpos, p, r, 0, hp, hstart, hexamples, by rw [sub_zero],
    by rw [sub_zero]⟩

/-- **A resumed run** returns the ranker of an uninterrupted one, and leaves its checkpoint. -/
theorem resume_eq {metadata : Metadata} {k n : Int} (hk : 0 < k) (hlt : k < n)
    {store store' : Option Checkpoint} {trained : Trained}
    (h : trainNrmsFromDataset lib files metadata seed k true false store = (.ok trained, store'))
    (checkpoint : Bool) (other : Option Checkpoint) :
    ∃ resumed uninterrupted c,
      trainNrmsFromDataset lib files metadata seed n true true store' = (.ok resumed, some c)
        ∧ trainNrmsFromDataset lib files metadata seed n checkpoint false other
          = (.ok uninterrupted, if checkpoint then some c else other)
        ∧ resumed.startEpoch = k
        ∧ resumed.ranker = uninterrupted.ranker := by
  obtain ⟨p, r, hp, hr, hexamples, rfl⟩ := eq_of_train h
  have hfresh := (fresh_initialRanker hr).iterate (buildPairwiseExamples p.rows.train) k.toNat
  have hstart := @resumeFrom_save lib files seed p _ hfresh k n hlt
  rw [← start_resume] at hstart
  have hresumed := train_eq_ok_iff.mpr
    ⟨(by omega : 0 < n), p, _, k, hp, hstart, hexamples, rfl, rfl⟩
  have huninterrupted := train_eq (by omega : 0 < n) hp hr hexamples checkpoint other
  -- the epochs of the two runs together are those of the one
  have hcount : (n - k).toNat + k.toNat = n.toNat := by omega
  rw [← Function.iterate_add_apply, hcount] at hresumed
  exact ⟨_, _, _, hresumed, huninterrupted, rfl, rfl⟩

/-- A checkpoint with another contract, or of an epoch that is not below the target, is rejected
    before the first epoch: the file stays as it is. -/
theorem reject {metadata : Metadata} {n : Int} {c : Checkpoint}
    (hbad : ∀ p, prepare lib files metadata = .ok p →
      c.contract ≠ p.checkpointContract lib files seed ∨ n ≤ c.epoch) :
    ∃ e, trainNrmsFromDataset lib files metadata seed n true true (some c)
      = (.error e, some c) := by
  unfold trainNrmsFromDataset
  by_cases hpos : n ≤ 0
  · exact ⟨_, if_pos hpos⟩
  rw [if_neg hpos]
  cases hp : prepare lib files metadata with
  | error e => exact ⟨e, rfl⟩
  | ok p =>
    dsimp only
    cases hstart : p.start lib files seed n true true (some c) with
    | error e => exact ⟨e, rfl⟩
    | ok start =>
      rw [start_resume] at hstart
      obtain ⟨c', hc, hcontract, hepoch, hlt, -⟩ := eq_of_resumeFrom hstart
      obtain rfl := Option.some.inj hc
      rcases hbad p hp with hbad | hbad
      · exact absurd hcontract hbad
      · omega

/-- **Resumed training.**  For `0 < k < n`, `k` epochs with a checkpoint and a resumed run up to
    `n` return the ranker of `n` epochs in one run.  A checkpoint whose contract is not that of the
    run, or whose epoch is not below its target, is rejected before any training; so is every
    checkpoint of another dataset, of other metadata or of another seed, when the two files of the
    two runs are no collision. -/
theorem resume_laws (lib : Library) (files : DatasetFiles) (metadata : Metadata) (seed : Int) :
    (∀ (k n : Int) (store store' : Option Checkpoint) (trained : Trained), 0 < k → k < n →
      trainNrmsFromDataset lib files metadata seed k true false store = (.ok trained, store') →
      ∀ (checkpoint : Bool) (other : Option Checkpoint), ∃ resumed uninterrupted c,
        trainNrmsFromDataset lib files metadata seed n true true store' = (.ok resumed, some c)
          ∧ trainNrmsFromDataset lib files metadata seed n checkpoint false other
            = (.ok uninterrupted, if checkpoint then some c else other)
          ∧ resumed.startEpoch = k
          ∧ resumed.ranker = uninterrupted.ranker)
      ∧ (∀ (n : Int) (c : Checkpoint),
        (∀ p, prepare lib files metadata = .ok p →
          c.contract ≠ p.checkpointContract lib files seed ∨ n ≤ c.epoch) →
        ∃ e, trainNrmsFromDataset lib files metadata seed n true true (some c)
          = (.error e, some c))
      ∧ ∀ (files' : DatasetFiles) (metadata' : Metadata) (seed' k n : Int)
        (store store' : Option Checkpoint) (trained : Trained), 0 < k →
        trainNrmsFromDataset lib files' metadata' seed' k true false store
          = (.ok trained, store') →
        (lib.sha256 files'.parquet = lib.sha256 files.parquet →
          files'.parquet = files.parquet) →
        (lib.sha256 files'.metadata = lib.sha256 files.metadata →
          files'.metadata = files.metadata) →
        (files' ≠ files ∨ seed' ≠ seed) →
        ∃ e, trainNrmsFromDataset lib files metadata seed n true true store'
          = (.error e, store') := by
  refine ⟨?_, ?_, ?_⟩
  · intro k n store store' trained hk hlt h checkpoint other
    exact resume_eq hk hlt h checkpoint other
  · intro n c hbad
    exact reject hbad
  · intro files' metadata' seed' k n store store' trained hk h hparquet hmetadata hother
    obtain ⟨p', r, -, -, -, rfl⟩ := eq_of_train h
    refine reject fun p _ => Or.inl fun hcontract => ?_
    obtain ⟨-, hdataset, hmeta, -, -, -, hseed, -⟩ := Contract.mk.inj hcontract
    rcases hother with hother | hother
    · apply hother
      cases files
      cases files'
      exact congrArg₂ DatasetFiles.mk (hparquet hdataset) (hmetadata hmeta)
    · exact hother hseed

/-- A request of a user who has clicked one article, with a clicked and another candidate, and a row for
    each of the other splits.  All embeddings are on one line. -/
def smallRows (dimension : Nat) : List (TableRow (EmbeddingOf dimension)) :=
  let row (group split : String) (clicked : Bool) (candidate : ℝ) :
      TableRow (EmbeddingOf dimension) := {
    requestGroup := some group
    split := some split
    servedAt := ⟨⟨2024, 1, 2, 0, 0, 0, 0, some 0⟩, rfl⟩
    sourceFormat := none
    embedding := some fun _ => candidate
    declaredTopicEmbedding := none
    history := [⟨0, some fun _ => 1, some ⟨⟨2024, 1, 1, 0, 0, 0, 0, some 0⟩, rfl⟩, none⟩]
    clickLabel := clicked }
  [row "a" "train" true 1, row "a" "train" false (-1), row "b" "validation" true 1,
    row "c" "test" true 1]

/-- Projections of ones, and a file's checksum that says whether the file is empty. -/
noncomputable def smallLibrary : Library where
  sha256 bytes := if bytes = [] then "e3b0c442" else "4bf5122f"
  readTable dimension _ := .ok ⟨nrmsRequiredRowColumns, smallRows dimension⟩
  normal _ _ := .ok (1, 1, 1)
  fit _ := (1, 0)

def smallMetadata : Metadata where
  datasetSchemaVersion := some datasetSchemaVersionV2
  historySchemaVersion := some "user-history-snapshot-v1"
  featureSchemaVersion := some "features-v1"
  labelDefinitionVersion := some "click-v1"
  encoderVersion := some "encoder-v1"
  encoderDimension := some 1
  queryWindow := true
  rowCount := some 4
  codeVersion := none

theorem prepare_small (files : DatasetFiles) :
    ∃ p r, prepare smallLibrary files smallMetadata = .ok p
      ∧ p.initialRanker smallLibrary 7 = .ok r
      ∧ (buildPairwiseExamples p.rows.train).isEmpty = false :=
  ⟨_, _, rfl, rfl, rfl⟩

theorem resume_laws_small :
    ∃ trained c,
      trainNrmsFromDataset smallLibrary ⟨[1], [1]⟩ smallMetadata 7 1 true false none
          = (.ok trained, some c)
        ∧ (∃ resumed uninterrupted c',
          trainNrmsFromDataset smallLibrary ⟨[1], [1]⟩ smallMetadata 7 2 true true (some c)
              = (.ok resumed, some c')
            ∧ trainNrmsFromDataset smallLibrary ⟨[1], [1]⟩ smallMetadata 7 2 false false none
              = (.ok uninterrupted, none)
            ∧ resumed.startEpoch = 1
            ∧ resumed.ranker = uninterrupted.ranker)
        ∧ (∃ e, trainNrmsFromDataset smallLibrary ⟨[1], [1]⟩ smallMetadata 7 1 true true (some c)
          = (.error e, some c))
        ∧ ∃ e, trainNrmsFromDataset smallLibrary ⟨[], [1]⟩ smallMetadata 7 2 true true (some c)
          = (.error e, some c) := by
  obtain ⟨p, r, hp, hr, hexamples⟩ := prepare_small ⟨[1], [1]⟩
  have htrain := train_eq (by decide : (0 : Int) < 1) hp hr hexamples true none
  rw [if_pos rfl] at htrain
  obtain ⟨hresume, hreject, -⟩ := resume_laws smallLibrary ⟨[1], [1]⟩ smallMetadata 7
  obtain ⟨-, -, hforeign⟩ := resume_laws smallLibrary ⟨[], [1]⟩ smallMetadata 7
  refine ⟨_, _, htrain, ?_, ?_, ?_⟩
  · exact hresume 1 2 none _ _ (by decide) (by decide) htrain false none
  · apply hreject 1
    intro p' _
    exact Or.inr le_rfl
  · apply hforeign ⟨[1], [1]⟩ smallMetadata 7 1 2 none _ _ (by decide) htrain
    · simp [smallLibrary]
    · exact fun _ => rfl
    · exact Or.inl (by decide)

end Resume

end Oecophylla.Ranker
