import Oecophylla.Lib.Crash
import Oecophylla.Mind.Compaction
import Oecophylla.Python.Float64

namespace Oecophylla.Mind.Continuation

open Lib (breakOff)
open Oecophylla.Python (Float64)

/-!
# The continuation search — `ai_pipeline/continuation.py`

After its preparation a search is a directory.  Its stages read what is there and write files: the
vectors, a model and a report for each registered configuration, the winner, and the inputs of one
benchmark.  A stage may be broken off after any of its writes.

* `SearchProtocol`, `Artifact`, `Selection`, `Directory`, `Write`, `apply` — the files;
* `encodeData`, `trainCandidates`, `freezeWinner`, `benchmarkWinner` — what the stages write;
* `stage`, `step` — a call of the program, and one that is broken off.

The training of one configuration and the evaluation are parameters.
-/

/-- What the stages raise: errors of the dataset and its vectors, and those of the directory. -/
inductive SearchRaised where
  | mind (raised : Raised)
  | valueError (text : String)
  | fileExists (text : String)
  | fileNotFound (name : String)
  | keyError (name : String)
  | artifact

/-- `config["objective"]`. -/
inductive Objective where
  | sampledCe
  | listwiseCe
  deriving DecidableEq, Repr

/-- A configuration. -/
structure Config where
  historyLimit : Nat
  freezeValues : Bool
  objective : Objective
  negativesPerPositive : Option Nat
  anchorStrength : ℚ
  learningRates : List ℚ
  deriving DecidableEq

/-- `CONFIGS`. -/
def configs : List (String × Config) :=
  [("attention20", ⟨20, true, .sampledCe, some 8, 0, [3 / 10000, 1 / 1000]⟩),
    ("attention50", ⟨50, true, .sampledCe, some 8, 0, [3 / 10000, 1 / 1000]⟩),
    ("value20", ⟨20, false, .listwiseCe, none, 1, [3 / 100000, 1 / 10000]⟩),
    ("value50", ⟨50, false, .listwiseCe, none, 1, [3 / 100000, 1 / 10000]⟩)]

/-- `search-protocol.json`: registered before anything is trained. -/
structure SearchProtocol where
  seed : Int
  epochs : Int
  batchSize : Int
  patience : Int
  absoluteTarget : ℚ
  configs : List (String × Config)
  parentModelSha256 : String
  parentManifestSha256 : String
  datasetSha256 : String
  embeddingsSha256 : Option String
  /-- The keys of a dictionary, which are chosen among those of `CONFIGS`. -/
  distinct : (configs.map Prod.fst).Nodup
  chosen : ∀ c ∈ configs, c ∈ Continuation.configs

/-- The arguments with which one configuration is trained. -/
structure FitArguments where
  config : Config
  epochs : Int
  patience : Int
  batchSize : Int
  seed : Int
  positionScale : ℚ
  semanticResidual : ℚ

/-- What the trainer reports. -/
structure Training where
  validationNdcgAt10 : Float64
  /-- Every number of the report is finite, so that it can be written. -/
  finite : Bool
  finite_ndcg : finite = true → ∃ q, validationNdcgAt10 = .finite q

/-- An exported model: the ranker, and of its manifest what the search put there. -/
structure Artifact (R : Type) where
  ranker : R
  /-- `none` for the parent that is retained. -/
  training : Option Training
  datasetSha256 : String
  embeddingSha256 : String

/-- `training.json` of a trial. -/
structure TrialReport where
  name : String
  validationNdcgAt10 : Float64
  modelSha256 : String

/-- `selection.json`. -/
structure Selection where
  selected : String
  validationNdcgAt10 : Float64
  candidates : List (String × Float64)
  modelSha256 : String

/-- `target-result.json`. -/
structure TargetResult where
  selected : String
  achieved : Bool
  ndcgAt10 : Float64
  modelSha256 : String

/-- The directory of a prepared search. -/
structure Directory (F R : Type) where
  protocol : SearchProtocol
  dataset : CompactDataset
  embeddings : Option (EmbeddingCache F)
  trialModels : String → Option (Artifact R)
  trialReports : String → Option TrialReport
  model : Option (Artifact R)
  selection : Option Selection
  benchmarkOpened : Bool
  benchmark : Option (BenchmarkInputs F)
  result : Option TargetResult

/-- One write to the directory. -/
inductive Write (F R : Type) where
  | embeddings (cache : EmbeddingCache F)
  | registerEmbeddings (sha256 : String)
  | trialModel (name : String) (artifact : Artifact R)
  | trialReport (name : String) (report : TrialReport)
  | model (artifact : Artifact R)
  | selection (selection : Selection)
  | openBenchmark
  | benchmark (inputs : BenchmarkInputs F)
  | result (result : TargetResult)

/-- What the stages call. -/
structure Library (F R : Type) where
  np : Numpy F
  encoderVersion : String
  dimension : Nat
  /-- `fit(train, validation, vectors, initial_ranker=ranker, …)`. -/
  fit : FitArguments → (train validation : List Request) → Vectors F → R →
    Except SearchRaised (R × Training)
  /-- `metrics(validation, score_requests(ranker, validation, vectors))["ndcg_at_10"]`. -/
  validationNdcgAt10 : R → (validation : List Request) → Vectors F → Except SearchRaised Float64
  /-- `load_artifact` takes what `export_artifact` made of the ranker. -/
  loads : R → Bool
  /-- `ranker.architecture.history_length`. -/
  historyLength : R → Nat
  /-- `sha256_file` of `model.joblib`, of `manifest.json`, of `dataset.json` and of
      `embeddings.npz`. -/
  modelSha256 : R → String
  manifestSha256 : Artifact R → String
  datasetSha256 : CompactDataset → String
  embeddingsSha256 : EmbeddingCache F → String
  /-- `ndcg_at_10` of the winner in the report of the benchmark. -/
  evaluate : R → BenchmarkInputs F → Except SearchRaised Float64

/-- The writes of a stage, up to its end or to what it raises. -/
structure Effects (F R : Type) where
  writes : List (Write F R)
  outcome : Except SearchRaised Unit

namespace Effects

variable {F R α : Type}

def done : Effects F R := ⟨[], .ok ()⟩

def throw (e : SearchRaised) : Effects F R := ⟨[], .error e⟩

/-- One write, and what follows. -/
def write (w : Write F R) (next : Effects F R) : Effects F R := ⟨w :: next.writes, next.outcome⟩

/-- A computation without writes, and what follows. -/
def compute (x : Except SearchRaised α) (next : α → Effects F R) : Effects F R :=
  match x with
  | .ok a => next a
  | .error e => throw e

@[simp] theorem compute_ok (a : α) (next : α → Effects F R) : compute (.ok a) next = next a := rfl

@[simp] theorem compute_error (e : SearchRaised) (next : α → Effects F R) :
    compute (.error e) next = throw e := rfl

end Effects

section Model

variable {F R : Type} (lib : Library F R)

/-- Perform a write. -/
def apply (d : Directory F R) : Write F R → Directory F R
  | .embeddings cache => { d with embeddings := some cache }
  | .registerEmbeddings sha256 =>
    { d with protocol := { d.protocol with embeddingsSha256 := some sha256 } }
  | .trialModel name artifact =>
    { d with trialModels := Function.update d.trialModels name (some artifact) }
  | .trialReport name report =>
    { d with trialReports := Function.update d.trialReports name (some report) }
  | .model artifact => { d with model := some artifact }
  | .selection selection => { d with selection := some selection }
  | .openBenchmark => { d with benchmarkOpened := true }
  | .benchmark inputs => { d with benchmark := some inputs }
  | .result result => { d with result := some result }

/-- `[row for row in data["requests"] if row["split"] == split]`. -/
def rowsOf (split : Dataset.SplitName) (data : CompactDataset) : List Request :=
  data.requests.filter fun row => row.split = split

/-- `checked_inputs(directory)`, with the parent as it is now. -/
def checkedInputs (d : Directory F R) (parent : Artifact R) : Except SearchRaised Unit :=
  if lib.loads parent.ranker = false then .error .artifact
  else if d.protocol.parentModelSha256 ≠ lib.modelSha256 parent.ranker
      ∨ d.protocol.parentManifestSha256 ≠ lib.manifestSha256 parent
      ∨ d.protocol.datasetSha256 ≠ lib.datasetSha256 d.dataset then
    .error (.valueError "registered continuation inputs changed")
  else .ok ()

/-- What an encoder and a reference directory are for the stage `encode`. -/
structure Encoding (F : Type) where
  reference : List Article
  referenceCache : Option (EmbeddingCache F)
  encode : List String → Except Raised (Vectors F)

/-- `encode_data(directory, protocol, data, …)`. -/
def encodeData (d : Directory F R) (e : Encoding F) : Effects F R :=
  .compute ((cachedEmbeddings lib.np e.reference e.referenceCache encodeNothing lib.encoderVersion
    lib.dimension).mapError .mind) fun reference =>
  match d.embeddings with
  | some cache =>
    .compute ((cachedEmbeddings lib.np d.dataset.articles (some cache) encodeNothing
      lib.encoderVersion lib.dimension).mapError .mind) fun _ => .done
  | none =>
    .compute ((mergeEmbeddings lib.np d.dataset.articles e.reference reference.1 e.encode).mapError
      .mind) fun merged =>
    .compute ((cachedEmbeddings lib.np d.dataset.articles none (fun _ => .ok merged.1)
      lib.encoderVersion lib.dimension).mapError .mind) fun stored =>
    .write (.embeddings stored.2)
      (.write (.registerEmbeddings (lib.embeddingsSha256 stored.2)) .done)

/-- The vectors of the later stages. -/
def trainingVectors (d : Directory F R) : Except SearchRaised (Vectors F) :=
  match d.embeddings with
  | none => .error (.fileNotFound "embeddings.npz")
  | some cache =>
    match d.protocol.embeddingsSha256 with
    | none => .error (.keyError "embeddings_sha256")
    | some sha256 =>
      if lib.embeddingsSha256 cache ≠ sha256 then
        .error (.valueError "training embeddings changed")
      else ((cachedEmbeddings lib.np d.dataset.articles (some cache) encodeNothing
        lib.encoderVersion lib.dimension).mapError .mind).map Prod.fst

/-- The arguments of `fit` for a configuration. -/
def fitArguments (protocol : SearchProtocol) (config : Config) : FitArguments where
  config := config
  epochs := protocol.epochs
  patience := protocol.patience
  batchSize := match config.objective with
    | .sampledCe => protocol.batchSize
    | .listwiseCe => min 32 protocol.batchSize
  seed := protocol.seed
  positionScale := 0
  semanticResidual := 1 / 2

/-- `dataset_metadata["embedding_sha256"]`. -/
def embeddingSha256 (d : Directory F R) : String := d.protocol.embeddingsSha256.getD ""

/-- The loop of `train_candidates`. -/
def trainLoop (d : Directory F R) (parent : R) (vectors : Vectors F) (trial : Option String) :
    List (String × Config) → Effects F R
  | [] =>
    if ∃ name ∈ trial, name ∉ d.protocol.configs.map Prod.fst then
      .throw (.valueError "trial was not registered")
    else .done
  | (name, config) :: rest =>
    if ∃ only ∈ trial, only ≠ name then trainLoop d parent vectors trial rest
    else if (d.trialReports name).isSome then
      match d.trialModels name with
      | none => .throw .artifact
      | some artifact =>
        if lib.loads artifact.ranker = false then .throw .artifact
        else trainLoop d parent vectors trial rest
    else
      .compute (lib.fit (fitArguments d.protocol config) (rowsOf .train d.dataset)
        (rowsOf .validation d.dataset) vectors parent) fun trained =>
      if (d.trialModels name).isSome then .throw (.fileExists "artifact output already exists")
      else
        .write (.trialModel name
          ⟨trained.1, some trained.2, d.protocol.datasetSha256, embeddingSha256 d⟩)
        (if trained.2.finite = false then
          .throw (.valueError "Out of range float values are not JSON compliant")
        else .write (.trialReport name
            ⟨name, trained.2.validationNdcgAt10, lib.modelSha256 trained.1⟩)
          (trainLoop d parent vectors trial rest))

/-- `train_candidates(directory, protocol, parent, data, vectors, trial=trial)`. -/
def trainCandidates (d : Directory F R) (parent : R) (vectors : Vectors F) (trial : Option String) :
    Effects F R :=
  if d.selection.isSome then .throw (.fileExists "search frozen; start a new experiment")
  else trainLoop lib d parent vectors trial d.protocol.configs

/-- `np.isfinite(x)`. -/
def isfinite : Float64 → Bool
  | .finite _ => true
  | _ => false

/-- `max(candidates, key=lambda row: row["validation_ndcg_at_10"])`. -/
def best : (String × Float64) → List (String × Float64) → String × Float64
  | top, [] => top
  | top, c :: rest => best (if top.2 < c.2 then c else top) rest

/-- `select_winner(candidates)`. -/
def selectWinner (candidates : List (String × Float64)) : Except SearchRaised (String × Float64) :=
  match candidates with
  | [] => .error (.valueError "finite validation candidates are required")
  | first :: rest =>
    if candidates.any fun c => !isfinite c.2 then
      .error (.valueError "finite validation candidates are required")
    else .ok (best first rest)

/-- The candidate of a registered configuration. -/
def trialCandidate (d : Directory F R) (name : String) : Except SearchRaised (String × Float64) :=
  match d.trialReports name with
  | none => .error (.fileNotFound "training.json")
  | some report =>
    match d.trialModels name with
    | none => .error .artifact
    | some artifact =>
      if lib.loads artifact.ranker = false then .error .artifact
      else if report.modelSha256 ≠ lib.modelSha256 artifact.ranker then
        .error (.valueError "trial report/model mismatch")
      else .ok (report.name, report.validationNdcgAt10)

/-- The model of the winner. -/
def winningModel (d : Directory F R) (parent : R) (winner : String) : Option (Artifact R) :=
  if winner = "parent_r2" then some ⟨parent, none, d.protocol.datasetSha256, embeddingSha256 d⟩
  else d.trialModels winner

/-- `freeze_winner(directory, protocol, parent, data, vectors)`. -/
def freezeWinner (d : Directory F R) (parent : R) (vectors : Vectors F) : Effects F R :=
  if d.selection.isSome then .throw (.fileExists "winner is already frozen")
  else
    .compute (lib.validationNdcgAt10 parent (rowsOf .validation d.dataset) vectors) fun ndcg =>
    .compute (d.protocol.configs.mapM fun c => trialCandidate lib d c.1) fun trials =>
    let candidates := ("parent_r2", ndcg) :: trials
    .compute (selectWinner candidates) fun winner =>
    match winningModel d parent winner.1 with
    | none => .throw (.fileNotFound "model")
    | some artifact =>
      if d.model.isSome then
        .throw (.fileExists (if winner.1 = "parent_r2" then "artifact output already exists"
          else "model"))
      else
        .write (.model artifact)
        (if lib.loads artifact.ranker = false then .throw .artifact
        else .write (.selection ⟨winner.1, winner.2, candidates, lib.modelSha256 artifact.ranker⟩)
          .done)

/-- `benchmark_winner(directory, protocol, parent, data, vectors)`. -/
def benchmarkWinner (d : Directory F R) (vectors : Vectors F) : Effects F R :=
  match d.selection, d.model with
  | none, _ => .throw (.fileNotFound "selection.json")
  | some _, none => .throw .artifact
  | some selection, some artifact =>
    if lib.loads artifact.ranker = false then .throw .artifact
    else if selection.modelSha256 ≠ lib.modelSha256 artifact.ranker then
      .throw (.valueError "selected model changed before benchmark")
    else if d.benchmarkOpened then .throw (.fileExists "sealed benchmark already opened")
    else
      .write .openBenchmark
      (.compute ((compact (lib.historyLength artifact.ranker) d.dataset.articles d.dataset.requests
        vectors).mapError .mind) fun inputs =>
      .write (.benchmark inputs)
      (.compute (lib.evaluate artifact.ranker inputs) fun ndcg =>
      if isfinite ndcg = false then
        .throw (.valueError "Out of range float values are not JSON compliant")
      else .write (.result ⟨selection.selected, decide (.finite d.protocol.absoluteTarget < ndcg),
        ndcg, selection.modelSha256⟩) .done))

/-- A call of the program, with the parent artifact as it is then. -/
inductive Stage (F R : Type) where
  | encode (parent : Artifact R) (encoding : Encoding F)
  | train (parent : Artifact R) (trial : Option String)
  | select (parent : Artifact R)
  | benchmark (parent : Artifact R)

/-- `main(argv)` after the stage `prepare`. -/
def stage (d : Directory F R) : Stage F R → Effects F R
  | .encode parent encoding => .compute (checkedInputs lib d parent) fun _ => encodeData lib d encoding
  | .train parent trial =>
    .compute (checkedInputs lib d parent) fun _ =>
    .compute (trainingVectors lib d) fun vectors => trainCandidates lib d parent.ranker vectors trial
  | .select parent =>
    .compute (checkedInputs lib d parent) fun _ =>
    .compute (trainingVectors lib d) fun vectors => freezeWinner lib d parent.ranker vectors
  | .benchmark parent =>
    .compute (checkedInputs lib d parent) fun _ =>
    .compute (trainingVectors lib d) fun vectors => benchmarkWinner lib d vectors

/-- A stage that is broken off after some of its writes. -/
def step (d : Directory F R) (a : Stage F R × Nat) : Directory F R :=
  breakOff apply (fun d s => (stage lib d s).writes) d a

end Model

end Oecophylla.Mind.Continuation
