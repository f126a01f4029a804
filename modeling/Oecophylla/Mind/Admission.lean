import Oecophylla.Mind.Benchmark

namespace Oecophylla.Mind

open Lib (except_bind_eq_ok)

/-!
# Registered benchmarks — `ai_pipeline/benchmark_data.py`, `ai_pipeline/benchmark.py`

Three programs work on the directory of a benchmark.  `benchmark_data.py --stage prepare` samples a
holdout for a frozen artifact and registers it: `protocol.json` has the checksums of the dataset, of the
artifact and of every dataset that was evaluated before.  `--stage encode` adds the vectors of the
articles and their checksum.  `benchmark.py` scores the requests, but first it looks whether all files
are as registered, and validates what it reads from them.

In between anything may happen to the files.  A file is therefore its `sha256_file` together with what
is read from it, and the only assumption is that a file with a registered checksum has the content that
was registered (`Stored.Faithful`).

* `prepareStage` — the first program; the second one is `encodeStage`;
* `validateHoldout`, `admissionChecks` — what the third program asks before it scores anything;
* `validateHoldout_eq_ok_iff`, `admissionChecks_eq_ok_iff` — when they accept;
* `acceptable_written` — a request of a prepared holdout is acceptable;
* `prepareStage_admitted` — what the first two programs wrote is scored exactly when nothing has changed.

A file that is gone stops the programs when it is opened; this is not part of the model.
-/

/-! ### The files -/

/-- A file: its `sha256_file`, and what is read from it. -/
structure Stored (α : Type) where
  sha256 : String
  content : α

/-- A file with the checksum of an earlier one has its content. -/
def Stored.Faithful {α : Type} (now before : Stored α) : Prop :=
  now.sha256 = before.sha256 → now.content = before.content

/-- What the programs raise. -/
inductive ProgramRaised where
  | holdout (raised : HoldoutRaised)
  | mind (raised : Raised)
  | fileExistsError (text : String)
  | typeError (text : String)
  | keyError (key : String)
  | artifactIntegrityError (text : String)

/-- `ENCODER_VERSION` and `EMBEDDING_DIMENSION`. -/
structure Encoder where
  version : String
  dimension : Nat

/-- An NRMS artifact, as `load_artifact` gives it: the manifest has the dimension of the ranker. -/
structure LoadedNRMSArtifact where
  embeddingVersion : String
  embeddingDimension : Nat
  historyLength : Int
  /-- `manifest["dataset"]["sha256"]`. -/
  datasetSha256 : String
  /-- `manifest["dataset"]["metadata"]["embedding_sha256"]`. -/
  embeddingSha256 : String

/-- The directory of an artifact. -/
structure ArtifactDirectory where
  modelSha256 : String
  manifestSha256 : String
  /-- `load_artifact(directory)`: the text of its error, or `none` for an artifact of another kind. -/
  loaded : Except String (Option LoadedNRMSArtifact)

/-- `dataset.json`, as far as the programs read it. -/
structure DatasetFile where
  articles : List Article
  requests : List Request
  /-- `metadata["source_files"]`, each with its checksum. -/
  sourceFiles : List (String × String)

/-- A directory with a dataset that was evaluated before. -/
structure DatasetDirectory where
  path : String
  identitySalt : String
  dataset : Stored DatasetFile

/-- What `prepare` finds. -/
structure PrepareInputs where
  /-- `protocol.json` or `dataset.json` is there. -/
  prepared : Bool
  artifact : ArtifactDirectory
  reference : DatasetDirectory
  referenceEmbeddingsSha256 : String
  excludeDatasets : List DatasetDirectory
  trainFiles : SourceFiles
  devFiles : SourceFiles
  requests : Int
  seed : Int

/-- `list(dict.fromkeys([reference_path.resolve(), …]))`. -/
def PrepareInputs.paths (inputs : PrepareInputs) : List DatasetDirectory :=
  (inputs.reference :: inputs.excludeDatasets).eraseDupsBy fun a b => a.path == b.path

/-- `protocol.json`, as far as it decides whether the benchmark is scored. -/
structure Protocol where
  datasetSha256 : String
  modelSha256 : String
  manifestSha256 : String
  /-- The paths of the excluded datasets, with their checksums. -/
  excludedDatasets : List (String × String)
  requests : Int

/-- The dataset that is written for a holdout. -/
def Holdout.file (holdout : Holdout) : DatasetFile where
  articles := holdout.articles
  requests := holdout.requests
  sourceFiles :=
    ("MINDlarge_dev/behaviors.tsv", holdout.sourceFiles.1.sha256) :: holdout.sourceFiles.2

/-- What `benchmark.py` finds. -/
structure BenchmarkFiles (F : Type) where
  /-- `report.json` is there. -/
  report : Bool
  artifact : ArtifactDirectory
  dataset : Stored DatasetFile
  embeddings : Stored (EmbeddingCache F)
  /-- `embedding-audit.json`. -/
  auditSha256 : String
  auditEncoder : String
  /-- The dataset at a path. -/
  datasetAt : String → Stored DatasetFile

/-! ### Preparing -/

/-- The groups of the test requests. -/
def testGroups (requests : List Request) : List String :=
  (requests.filter fun row => row.split = .test).map Request.requestGroup

/-- `raise ValueError(text)`. -/
def valueError {α : Type} (text : String) : Except ProgramRaised α := .error (.mind (.valueError text))

/-- What is asked of the artifact and its training data before either stage. -/
def pinnedArtifact (encoder : Encoder) (inputs : PrepareInputs) :
    Except ProgramRaised LoadedNRMSArtifact :=
  match inputs.artifact.loaded with
  | .error text => .error (.artifactIntegrityError text)
  | .ok none => valueError "benchmark requires the pinned multilingual NRMS artifact"
  | .ok (some artifact) =>
    if artifact.embeddingVersion ≠ encoder.version ∨ artifact.embeddingDimension ≠ encoder.dimension then
      valueError "benchmark requires the pinned multilingual NRMS artifact"
    else if inputs.reference.dataset.sha256 ≠ artifact.datasetSha256 then
      valueError "reference dataset is not the frozen model's training dataset"
    else if inputs.referenceEmbeddingsSha256 ≠ artifact.embeddingSha256 then
      valueError "reference embedding checksum mismatch"
    else .ok artifact

/-- `max(row["served_at"] for row in reference["requests"] if row["split"] != "test")`. -/
def trainingEnd (requests : List Request) : Except ProgramRaised String :=
  match ((requests.filter fun row => row.split ≠ .test).map Request.servedAt).max? with
  | none => valueError "max() iterable argument is empty"
  | some time => .ok time

/-- One source file, against an earlier dataset. -/
def sameSource (old : List (String × String)) (source : String × String) : Except ProgramRaised Unit :=
  match old.lookup source.1 with
  | none => .error (.keyError source.1)
  | some sha256 =>
    if sha256 ≠ source.2 then valueError "benchmark source differs from previously evaluated data"
    else .ok ()

/-- The stage `prepare`: the protocol and the holdout that it writes.  `written` is the checksum of the
    file of a holdout. -/
def prepareStage (rt : Runtime) (encoder : Encoder) (written : Holdout → String)
    (inputs : PrepareInputs) : Except ProgramRaised (Protocol × Holdout) := do
  let artifact ← pinnedArtifact encoder inputs
  if inputs.prepared then
    .error (.fileExistsError "benchmark already prepared; use a new output directory")
  else if ∃ d ∈ inputs.paths, d.identitySalt ≠ inputs.reference.identitySalt then
    valueError "holdout exclusion datasets must share the same identity salt"
  else
    let excluded := inputs.paths.flatMap fun d => testGroups d.dataset.content.requests
    let trainingEnd ← trainingEnd inputs.reference.dataset.content.requests
    let data ← (prepareHoldout rt inputs.trainFiles inputs.devFiles ⟨excluded, inputs.requests,
      inputs.seed, inputs.reference.identitySalt, artifact.historyLength, trainingEnd⟩).mapError .holdout
    let _ ← inputs.paths.mapM fun d =>
      data.file.sourceFiles.mapM (sameSource d.dataset.content.sourceFiles)
    pure ({
      datasetSha256 := written data
      modelSha256 := inputs.artifact.modelSha256
      manifestSha256 := inputs.artifact.manifestSha256
      excludedDatasets := inputs.paths.map fun d => (d.path, d.dataset.sha256)
      requests := inputs.requests }, data)

/-! ### The checks before scoring -/

section Checks

variable {F : Type} (np : Numpy F)

/-- One request of `validate_holdout`; `groups` has those so far. -/
def validateRequest (count : Nat) (historyLimit : Int) (groups : List String) (row : Request) :
    Except Raised (List String) :=
  if row.split ≠ .test then .error (.valueError "benchmark accepts test requests only")
  else if row.requestGroup = "" ∨ row.userGroup = "" then
    .error (.valueError "stable request and user identities are required")
  else if row.requestGroup ∈ groups then .error (.valueError "duplicate benchmark request")
  else if row.candidates.length < 2 ∨ row.candidates.length ≠ row.labels.length
      ∨ ¬ row.candidates.Nodup ∨ historyLimit < row.history.length
      ∨ ∃ label ∈ row.labels, label ≠ 0 ∧ label ≠ 1 then
    .error (.valueError "invalid request candidates, labels or history")
  else if ∃ index ∈ row.candidates ++ row.history, count ≤ index then
    .error (.valueError "article index is outside the aligned embedding matrix")
  else .ok (row.requestGroup :: groups)

/-- `validate_holdout(requests, vectors, dimension=dimension, history_limit=history_limit)`. -/
def validateHoldout (requests : List Request) (vectors : Vectors F) (dimension : Nat)
    (historyLimit : Int) : Except Raised Unit :=
  if requests = [] ∨ vectors.valid np vectors.rows.length dimension = false then
    .error (.valueError "invalid holdout or embedding matrix")
  else do
    let _ ← requests.foldlM (validateRequest vectors.rows.length historyLimit) []
    pure ()

/-- One dataset that is excluded. -/
def admitPrior (groups : List String) (datasetAt : String → Stored DatasetFile)
    (previous : String × String) : Except ProgramRaised Unit :=
  if (datasetAt previous.1).sha256 ≠ previous.2 then valueError "excluded dataset checksum changed"
  else if ∃ group ∈ testGroups (datasetAt previous.1).content.requests, group ∈ groups then
    valueError "holdout overlaps previously evaluated requests"
  else .ok ()

/-- `benchmark.main`, up to where it scores the requests. -/
def admissionChecks (encoder : Encoder) (protocol : Protocol) (files : BenchmarkFiles F) :
    Except ProgramRaised Unit :=
  if files.report then .error (.fileExistsError "completed benchmark is immutable")
  else
    match files.artifact.loaded with
    | .error text => .error (.artifactIntegrityError text)
    | .ok none => .error (.typeError "NRMS artifact is required")
    | .ok (some artifact) =>
      if protocol.datasetSha256 ≠ files.dataset.sha256
          ∨ protocol.modelSha256 ≠ files.artifact.modelSha256
          ∨ protocol.manifestSha256 ≠ files.artifact.manifestSha256 then
        valueError "inputs changed after protocol registration"
      else if files.auditSha256 ≠ files.embeddings.sha256 ∨ files.auditEncoder ≠ encoder.version then
        valueError "embedding audit checksum/encoder mismatch"
      else do
        let (vectors, _) ← (cachedEmbeddings np files.dataset.content.articles
          (some files.embeddings.content) encodeNothing encoder.version
          artifact.embeddingDimension).mapError .mind
        let requests := files.dataset.content.requests
        (validateHoldout np requests vectors artifact.embeddingDimension
          artifact.historyLength).mapError .mind
        if (requests.length : Int) ≠ protocol.requests then
          valueError "request count differs from registered protocol"
        else
          let _ ← protocol.excludedDatasets.mapM
            (admitPrior (requests.map Request.requestGroup) files.datasetAt)
          pure ()

end Checks

/-! ### Validation -/

section Validation

variable {rt : Runtime} {args : HoldoutArguments} {F : Type} {np : Numpy F} {vectors : Vectors F}
  {dimension : Nat}

theorem length_lastWords_le (history : String) (n : Nat) : (lastWords history n).length ≤ n := by
  unfold lastWords
  rw [List.length_drop]
  omega

/-- What `validate_holdout` asks of one request. -/
structure Acceptable (count : Nat) (historyLimit : Int) (row : Request) : Prop where
  split : row.split = .test
  groups : row.requestGroup ≠ "" ∧ row.userGroup ≠ ""
  slate : 2 ≤ row.candidates.length ∧ row.candidates.Nodup
  labels : row.candidates.length = row.labels.length ∧ ∀ label ∈ row.labels, label = 0 ∨ label = 1
  history : row.history.length ≤ historyLimit
  indices : ∀ index ∈ row.candidates ++ row.history, index < count

theorem validateRequest_eq_ok_iff {count : Nat} {historyLimit : Int} {groups seen : List String}
    {row : Request} : validateRequest count historyLimit groups row = .ok seen
      ↔ Acceptable count historyLimit row ∧ row.requestGroup ∉ groups
        ∧ seen = row.requestGroup :: groups := by
  unfold validateRequest
  constructor
  · intro h
    split at h
    · cases h
    next hsplit =>
    split at h
    · cases h
    next hgroups =>
    split at h
    · cases h
    next hnew =>
    split at h
    · cases h
    next hslate =>
    split at h
    · cases h
    next hindices =>
    cases h
    simp only [not_or, not_exists, not_and, not_not] at hgroups hslate hindices
    obtain ⟨hshort, haligned, hnodup, hlong, hlabels⟩ := hslate
    refine ⟨⟨not_not.mp hsplit, hgroups, ⟨by omega, hnodup⟩, ⟨haligned, fun label hlabel => ?_⟩,
      by omega, fun index hindex => by have := hindices index hindex; omega⟩, hnew, rfl⟩
    exact or_iff_not_imp_left.mpr fun hzero => hlabels label hlabel hzero
  · rintro ⟨h, hnew, rfl⟩
    obtain ⟨hslate, hnodup⟩ := h.slate
    obtain ⟨haligned, hlabels⟩ := h.labels
    have hhistory := h.history
    rw [if_neg (not_not_intro h.split), if_neg (not_or.mpr h.groups), if_neg hnew, if_neg, if_neg]
    · rintro ⟨index, hindex, hout⟩
      exact absurd (h.indices index hindex) (by omega)
    · rintro (hshort | hunaligned | hrepeated | hlong | ⟨label, hlabel, hzero, hone⟩)
      · omega
      · omega
      · exact hrepeated hnodup
      · omega
      · exact (hlabels label hlabel).elim hzero hone

theorem foldlM_validateRequest_iff {count : Nat} {historyLimit : Int} {requests : List Request}
    {groups : List String} :
    (∃ seen, requests.foldlM (validateRequest count historyLimit) groups = .ok seen)
      ↔ (∀ row ∈ requests, Acceptable count historyLimit row)
        ∧ (requests.map Request.requestGroup).Nodup
        ∧ ∀ row ∈ requests, row.requestGroup ∉ groups := by
  induction requests generalizing groups with
  | nil => exact iff_of_true ⟨groups, rfl⟩ (by simp)
  | cons row requests ih =>
    have hstep : (∃ seen, (row :: requests).foldlM (validateRequest count historyLimit) groups
          = .ok seen)
        ↔ (Acceptable count historyLimit row ∧ row.requestGroup ∉ groups)
          ∧ ∃ seen, requests.foldlM (validateRequest count historyLimit)
            (row.requestGroup :: groups) = .ok seen := by
      simp only [List.foldlM_cons, except_bind_eq_ok, validateRequest_eq_ok_iff]
      constructor
      · rintro ⟨seen, _, ⟨hrow, hnew, rfl⟩, hrest⟩
        exact ⟨⟨hrow, hnew⟩, seen, hrest⟩
      · rintro ⟨⟨hrow, hnew⟩, seen, hrest⟩
        exact ⟨seen, _, ⟨hrow, hnew, rfl⟩, hrest⟩
    rw [hstep, ih, List.map_cons, List.nodup_cons, List.forall_mem_cons, List.forall_mem_cons]
    simp only [List.mem_cons, not_or, List.mem_map, not_exists, not_and]
    constructor
    · rintro ⟨⟨hrow, hnew⟩, hrows, hnodup, hrest⟩
      exact ⟨⟨hrow, hrows⟩, ⟨fun r hr heq => (hrest r hr).1 heq, hnodup⟩, hnew,
        fun r hr => (hrest r hr).2⟩
    · rintro ⟨⟨hrow, hrows⟩, ⟨hfirst, hnodup⟩, hnew, hrest⟩
      exact ⟨⟨hrow, hnew⟩, hrows, hnodup, fun r hr => ⟨hfirst r hr, hrest r hr⟩⟩

/-- **Validation**, whatever the order of the requests. -/
theorem validateHoldout_eq_ok_iff {requests : List Request} {historyLimit : Int} :
    validateHoldout np requests vectors dimension historyLimit = .ok ()
      ↔ requests ≠ [] ∧ vectors.valid np vectors.rows.length dimension = true
        ∧ (∀ row ∈ requests, Acceptable vectors.rows.length historyLimit row)
        ∧ (requests.map Request.requestGroup).Nodup := by
  have hfold := @foldlM_validateRequest_iff vectors.rows.length historyLimit requests []
  unfold validateHoldout
  split
  · next hbad =>
    refine iff_of_false (fun h => by cases h) fun ⟨hne, hvalid, _⟩ => ?_
    rcases hbad with hnil | hinvalid
    · exact hne hnil
    · rw [hvalid] at hinvalid
      cases hinvalid
  · next hgood =>
    obtain ⟨hne, hvalid⟩ := not_or.mp hgood
    rw [Bool.not_eq_false] at hvalid
    have hok : ((do
        let _ ← requests.foldlM (validateRequest vectors.rows.length historyLimit) []
        pure ()) : Except Raised Unit) = .ok ()
        ↔ ∃ seen, requests.foldlM (validateRequest vectors.rows.length historyLimit) []
          = .ok seen := by
      simp only [except_bind_eq_ok, Lib.except_pure_eq_ok, and_true]
    rw [hok, hfold]
    simp [hne, hvalid]

/-- A request that is written from an exported row is acceptable. -/
theorem acceptable_written (hhmac : ∀ salt text, rt.hmacSha256 salt text ≠ "")
    {impression user time history candidates : String} {row : Parsed} {request : Request}
    {news : List String} {articles : List Article}
    (hexports : Exports rt args impression user time history candidates row)
    (hwritten : Written rt args.salt news articles row request) (hlimit : 1 ≤ args.historyLimit) :
    Acceptable articles.length args.historyLimit request := by
  have hcandidates := hwritten.candidates.length_eq
  have hhistory := hwritten.history.length_eq
  have hbound := length_lastWords_le history args.historyLimit.toNat
  rw [← hexports.history] at hbound
  have hslate := hexports.slate
  have hlabels := hexports.labels
  have hall {ids : List String} {indices : List Nat}
      (hforall : List.Forall₂ (fun id index => ∃ article, articles[index]? = some article
        ∧ IsArticle rt args.salt news id article) ids indices) :
      ∀ index ∈ indices, index < articles.length := by
    induction hforall with
    | nil => exact fun _ h => absurd h List.not_mem_nil
    | cons hab _ ih =>
      obtain ⟨article, hget, -⟩ := hab
      exact List.forall_mem_cons.mpr ⟨(List.getElem?_eq_some_iff.mp hget).1, ih⟩
  constructor
  · exact hwritten.split
  · rw [hwritten.requestGroup, hwritten.userGroup, hexports.requestGroup, hexports.userGroup]
    exact ⟨hhmac _ _, hhmac _ _⟩
  · exact ⟨by omega, hwritten.distinct hslate.2⟩
  · rw [hwritten.labels]
    exact ⟨by omega, hlabels.2⟩
  · omega
  · intro index h
    rcases List.mem_append.mp h with h | h
    · exact hall hwritten.candidates index h
    · exact hall hwritten.history index h

end Validation

/-! ### Admission -/

section Admission

variable {rt : Runtime} {F : Type} {np : Numpy F} {encoder : Encoder} {written : Holdout → String}
  {inputs : PrepareInputs} {protocol : Protocol} {holdout : Holdout} {files : BenchmarkFiles F}

/-- What a stage `prepare` that returns went through. -/
structure Registered (rt : Runtime) (encoder : Encoder) (inputs : PrepareInputs) (protocol : Protocol)
    (holdout : Holdout) (artifact : LoadedNRMSArtifact) (trainingEnd : String) : Prop where
  loaded : inputs.artifact.loaded = .ok (some artifact)
  dimension : artifact.embeddingDimension = encoder.dimension
  prepared : prepareHoldout rt inputs.trainFiles inputs.devFiles
    ⟨inputs.paths.flatMap fun d => testGroups d.dataset.content.requests, inputs.requests, inputs.seed,
      inputs.reference.identitySalt, artifact.historyLength, trainingEnd⟩ = .ok holdout
  model : protocol.modelSha256 = inputs.artifact.modelSha256
  manifest : protocol.manifestSha256 = inputs.artifact.manifestSha256
  excluded : protocol.excludedDatasets = inputs.paths.map fun d => (d.path, d.dataset.sha256)
  requests : protocol.requests = inputs.requests

theorem pinnedArtifact_eq_ok {artifact : LoadedNRMSArtifact}
    (h : pinnedArtifact encoder inputs = .ok artifact) :
    inputs.artifact.loaded = .ok (some artifact)
      ∧ artifact.embeddingDimension = encoder.dimension := by
  unfold pinnedArtifact at h
  split at h
  · cases h
  · cases h
  · next found hloaded =>
    split at h
    · cases h
    next hpinned =>
    split at h
    · cases h
    split at h
    · cases h
    cases h
    exact ⟨hloaded, not_not.mp (not_or.mp hpinned).2⟩

/-- **Preparing** a benchmark. -/
theorem prepareStage_spec (h : prepareStage rt encoder written inputs = .ok (protocol, holdout)) :
    ∃ artifact trainingEnd,
      Registered rt encoder inputs protocol holdout artifact trainingEnd := by
  unfold prepareStage at h
  rw [except_bind_eq_ok] at h
  obtain ⟨artifact, hartifact, h⟩ := h
  obtain ⟨hloaded, hdimension⟩ := pinnedArtifact_eq_ok hartifact
  split at h
  · cases h
  split at h
  · cases h
  rw [except_bind_eq_ok] at h
  obtain ⟨time, -, h⟩ := h
  rw [except_bind_eq_ok] at h
  obtain ⟨data, hdata, h⟩ := h
  rw [except_bind_eq_ok] at h
  obtain ⟨-, -, h⟩ := h
  cases h
  exact ⟨artifact, time, hloaded, hdimension, Lib.except_mapError_eq_ok.mp hdata, rfl, rfl, rfl, rfl⟩

theorem admitPrior_eq_ok_iff {groups : List String} {datasetAt : String → Stored DatasetFile}
    {previous : String × String} :
    admitPrior groups datasetAt previous = .ok ()
      ↔ (datasetAt previous.1).sha256 = previous.2
        ∧ ∀ group ∈ testGroups (datasetAt previous.1).content.requests, group ∉ groups := by
  unfold admitPrior
  split
  · next hchanged => exact iff_of_false nofun fun h => hchanged h.1
  · next hsame =>
    split
    · next hoverlap =>
      obtain ⟨group, hgroup, hin⟩ := hoverlap
      exact iff_of_false nofun fun h => h.2 group hgroup hin
    · next hdisjoint =>
      exact iff_of_true rfl ⟨not_not.mp hsame, fun group hgroup hin => hdisjoint ⟨group, hgroup, hin⟩⟩

/-- What the checks ask of the files. -/
structure Accepted (np : Numpy F) (encoder : Encoder) (protocol : Protocol) (files : BenchmarkFiles F)
    (artifact : LoadedNRMSArtifact) (vectors : Vectors F) : Prop where
  report : files.report = false
  loaded : files.artifact.loaded = .ok (some artifact)
  dataset : protocol.datasetSha256 = files.dataset.sha256
  model : protocol.modelSha256 = files.artifact.modelSha256
  manifest : protocol.manifestSha256 = files.artifact.manifestSha256
  audit : files.auditSha256 = files.embeddings.sha256
  auditEncoder : files.auditEncoder = encoder.version
  read : ∃ cache, cachedEmbeddings np files.dataset.content.articles
    (some files.embeddings.content) encodeNothing encoder.version artifact.embeddingDimension
      = .ok (vectors, cache)
  valid : validateHoldout np files.dataset.content.requests vectors artifact.embeddingDimension
    artifact.historyLength = .ok ()
  count : (files.dataset.content.requests.length : Int) = protocol.requests
  priors : ∀ previous ∈ protocol.excludedDatasets,
    admitPrior (files.dataset.content.requests.map Request.requestGroup) files.datasetAt previous
      = .ok ()

/-- **The checks** pass exactly when each of them does. -/
theorem admissionChecks_eq_ok_iff : admissionChecks np encoder protocol files = .ok ()
    ↔ ∃ artifact vectors, Accepted np encoder protocol files artifact vectors := by
  unfold admissionChecks
  constructor
  · intro h
    split at h
    · cases h
    next hreport =>
    split at h
    · cases h
    · cases h
    next artifact hloaded =>
    split at h
    · cases h
    next hregistered =>
    split at h
    · cases h
    next haudit =>
    rw [except_bind_eq_ok] at h
    obtain ⟨⟨vectors, cache⟩, hvectors, h⟩ := h
    dsimp only at h
    rw [except_bind_eq_ok] at h
    obtain ⟨⟨⟩, hvalid, h⟩ := h
    split at h
    · cases h
    next hcount =>
    rw [except_bind_eq_ok] at h
    obtain ⟨units, hunits, -⟩ := h
    simp only [not_or, not_not] at hregistered haudit
    exact ⟨artifact, vectors, Bool.not_eq_true _ ▸ hreport, hloaded, hregistered.1, hregistered.2.1,
      hregistered.2.2, haudit.1, haudit.2, ⟨cache, Lib.except_mapError_eq_ok.mp hvectors⟩,
      Lib.except_mapError_eq_ok.mp hvalid, not_not.mp hcount,
      Lib.exists_mapM_eq_ok_iff.mp ⟨units, hunits⟩⟩
  · rintro ⟨artifact, vectors, h⟩
    obtain ⟨cache, hcache⟩ := h.read
    obtain ⟨units, hunits⟩ := Lib.exists_mapM_eq_ok_iff.mpr h.priors
    rw [if_neg (by rw [h.report]; exact Bool.false_ne_true), h.loaded]
    dsimp only
    rw [if_neg (by simp only [h.dataset, h.model, h.manifest, ne_eq, not_true_eq_false, or_self,
        not_false_eq_true]),
      if_neg (by simp only [h.audit, h.auditEncoder, ne_eq, not_true_eq_false, or_self,
        not_false_eq_true])]
    rw [except_bind_eq_ok]
    refine ⟨(vectors, cache), Lib.except_mapError_eq_ok.mpr hcache, ?_⟩
    dsimp only
    rw [except_bind_eq_ok]
    refine ⟨(), Lib.except_mapError_eq_ok.mpr h.valid, ?_⟩
    rw [if_neg (not_not_intro h.count), except_bind_eq_ok]
    exact ⟨units, hunits, rfl⟩

/-- What was registered, under the checksums that were registered. -/
structure Faithful (inputs : PrepareInputs) (protocol : Protocol) (holdout : Holdout)
    (cache : EmbeddingCache F) (files : BenchmarkFiles F) : Prop where
  dataset : files.dataset.Faithful ⟨protocol.datasetSha256, holdout.file⟩
  artifact : files.artifact.modelSha256 = inputs.artifact.modelSha256 →
    files.artifact.manifestSha256 = inputs.artifact.manifestSha256 →
    files.artifact.loaded = inputs.artifact.loaded
  embeddings : files.embeddings.Faithful ⟨files.auditSha256, cache⟩
  priors : ∀ d ∈ inputs.paths, (files.datasetAt d.path).Faithful d.dataset

/-- No file has changed, and nothing was scored yet. -/
structure Unchanged (encoder : Encoder) (inputs : PrepareInputs) (protocol : Protocol)
    (files : BenchmarkFiles F) : Prop where
  report : files.report = false
  dataset : files.dataset.sha256 = protocol.datasetSha256
  model : files.artifact.modelSha256 = inputs.artifact.modelSha256
  manifest : files.artifact.manifestSha256 = inputs.artifact.manifestSha256
  embeddings : files.embeddings.sha256 = files.auditSha256
  encoder : files.auditEncoder = encoder.version
  priors : ∀ d ∈ inputs.paths, (files.datasetAt d.path).sha256 = d.dataset.sha256

/-- A prepared holdout is valid, with any valid vectors of its articles. -/
theorem validateHoldout_prepared {args : HoldoutArguments} {trainFiles devFiles : SourceFiles}
    {vectors : Vectors F} {dimension : Nat} (hhmac : ∀ salt text, rt.hmacSha256 salt text ≠ "")
    (h : prepareHoldout rt trainFiles devFiles args = .ok holdout)
    (hvectors : vectors.valid np holdout.articles.length dimension = true) :
    validateHoldout np holdout.requests vectors dimension args.historyLimit = .ok ()
      ∧ (holdout.requests.length : Int) = args.limit := by
  obtain ⟨rows, hprepared⟩ := prepareHoldout_spec h
  have hhistory : 1 ≤ args.historyLimit := by
    unfold prepareHoldout at h
    split at h
    · cases h
    · next hargs => omega
  obtain ⟨write, hperm, hwritten⟩ := hprepared.requests
  have hlimit := hprepared.limit
  have hlength : holdout.requests.length = rows.length := by
    rw [hperm.length_eq, List.length_map]
  have hcount : vectors.rows.length = holdout.articles.length := by
    unfold Vectors.valid at hvectors
    simp only [Bool.and_eq_true, beq_iff_eq] at hvectors
    exact hvectors.1.1
  have hne : holdout.requests ≠ [] := by
    intro hnil
    rw [hnil, List.length_nil] at hlength
    omega
  refine ⟨?_, by omega⟩
  rw [validateHoldout_eq_ok_iff, hcount]
  refine ⟨hne, hvectors, fun request hrequest => ?_,
    (groups_perm hprepared).nodup_iff.mpr hprepared.groups⟩
  obtain ⟨row, hrow, rfl⟩ := List.mem_map.mp (hperm.mem_iff.mp hrequest)
  obtain ⟨_, _, _, _, _, _, -, -, -, hexports⟩ := hprepared.exported row hrow
  exact acceptable_written hhmac hexports (hwritten row hrow) hhistory

/-- What the second program leaves is read again, and is as many unit vectors as there are articles. -/
theorem cachedEmbeddings_of_encodeStage {articles reference : List Article}
    {referenceCache target : Option (EmbeddingCache F)}
    {encode : List String → Except Raised (Vectors F)} {version : String} {dimension : Nat}
    {vectors : Vectors F} {audit : EmbeddingAudit} {cache : EmbeddingCache F}
    (h : encodeStage np articles reference referenceCache target encode version dimension
      = .ok (vectors, audit, cache)) :
    cachedEmbeddings np articles (some cache) encodeNothing version dimension = .ok (vectors, cache)
      ∧ vectors.valid np articles.length dimension = true := by
  unfold encodeStage at h
  rw [except_bind_eq_ok] at h
  obtain ⟨⟨old, _⟩, -, h⟩ := h
  rw [except_bind_eq_ok] at h
  obtain ⟨⟨merged, _⟩, -, h⟩ := h
  rw [except_bind_eq_ok] at h
  obtain ⟨stored, hstored, h⟩ := h
  cases h
  exact ⟨cachedEmbeddings_again hstored _, (cachedEmbeddings_spec hstored).1⟩

/-- **Admission.**  After a holdout was prepared and its articles were encoded, the benchmark goes on to
    score it exactly when no file has changed since and there is no report yet: the dataset, the two
    files of the artifact, the vectors and every dataset that the holdout was kept apart from. -/
theorem prepareStage_admitted (hhmac : ∀ salt text, rt.hmacSha256 salt text ≠ "")
    (hprepare : prepareStage rt encoder written inputs = .ok (protocol, holdout))
    {reference : List Article} {referenceCache target : Option (EmbeddingCache F)}
    {encode : List String → Except Raised (Vectors F)} {vectors : Vectors F} {audit : EmbeddingAudit}
    {cache : EmbeddingCache F}
    (hencode : encodeStage np holdout.articles reference referenceCache target encode encoder.version
      encoder.dimension = .ok (vectors, audit, cache))
    (hfaithful : Faithful inputs protocol holdout cache files) :
    admissionChecks np encoder protocol files = .ok ()
      ↔ Unchanged encoder inputs protocol files := by
  obtain ⟨artifact, time, hregistered⟩ := prepareStage_spec hprepare
  rw [admissionChecks_eq_ok_iff]
  constructor
  · rintro ⟨_, _, h⟩
    refine ⟨h.report, h.dataset.symm, ?_, ?_, h.audit.symm, h.auditEncoder, fun d hd => ?_⟩
    · rw [← h.model, hregistered.model]
    · rw [← h.manifest, hregistered.manifest]
    · have hprior := h.priors (d.path, d.dataset.sha256)
        (hregistered.excluded ▸ List.mem_map_of_mem hd)
      exact (admitPrior_eq_ok_iff.mp hprior).1
  · intro h
    have hdataset : files.dataset.content = holdout.file := hfaithful.dataset h.dataset
    have hcache : files.embeddings.content = cache := hfaithful.embeddings h.embeddings
    have hloaded := hfaithful.artifact h.model h.manifest
    -- reading the vectors again gives what the second program had
    obtain ⟨hread, hvalid⟩ := cachedEmbeddings_of_encodeStage hencode
    obtain ⟨hholdout, hcount⟩ := validateHoldout_prepared hhmac hregistered.prepared hvalid
    refine ⟨artifact, vectors, h.report, hloaded.trans hregistered.loaded, h.dataset.symm,
      hregistered.model.trans h.model.symm, hregistered.manifest.trans h.manifest.symm,
      h.embeddings.symm, h.encoder, ⟨cache, ?_⟩, ?_, ?_, fun previous hprevious => ?_⟩
    · rw [hdataset, hcache, hregistered.dimension]
      exact hread
    · rw [hdataset, hregistered.dimension]
      exact hholdout
    · rw [hdataset, hregistered.requests]
      exact hcount
    · rw [hregistered.excluded] at hprevious
      obtain ⟨d, hd, rfl⟩ := List.mem_map.mp hprevious
      have hsame := h.priors d hd
      refine admitPrior_eq_ok_iff.mpr ⟨hsame, fun group hgroup hin => ?_⟩
      -- the test requests of that dataset were left out of the sample
      rw [hfaithful.priors d hd hsame] at hgroup
      rw [hdataset] at hin
      obtain ⟨rows, hprepared⟩ := prepareHoldout_spec hregistered.prepared
      exact not_mem_excluded_of_mem hprepared hin (List.mem_flatMap.mpr ⟨d, hd, hgroup⟩)

/-- The training data of the artifact, with one test request. -/
def trainDirectory : DatasetDirectory where
  path := "train/dataset.json"
  identitySalt := "s"
  dataset := ⟨"d0", {
    articles := [⟨"#smind-article:N1", "Ants A", "news", "ants"⟩]
    requests := [⟨"g0", "u0", "2019-11-14T00:00:00+00:00", [], [0], [1], .train⟩,
      ⟨"#smind-request:MINDlarge_dev:U1:1", "u1", "2019-11-15T08:55:22+00:00", [], [0], [1], .test⟩]
    sourceFiles := [("MINDlarge_dev/behaviors.tsv", ""), ("MINDlarge_train/news.tsv", ""),
      ("MINDlarge_dev/news.tsv", "")] }⟩

/-- An earlier benchmark of the same request. -/
def earlierDirectory : DatasetDirectory :=
  { trainDirectory with
    path := "earlier/dataset.json"
    dataset := ⟨"d1", { trainDirectory.dataset.content with
      requests := trainDirectory.dataset.content.requests.drop 1 }⟩ }

/-- A benchmark of two requests. -/
def twoInputs : PrepareInputs where
  prepared := false
  artifact := ⟨"m", "f", .ok (some ⟨"e5", 1, 20, "d0", "v0"⟩)⟩
  reference := trainDirectory
  referenceEmbeddingsSha256 := "v0"
  excludeDatasets := [earlierDirectory]
  trainFiles := ⟨[], [], ""⟩
  devFiles := threeBehaviors
  requests := 2
  seed := 7

/-- The files as the first two programs left them, but for the earlier dataset. -/
def filesWith (earlier : Stored DatasetFile) (protocol : Protocol) (holdout : Holdout)
    (cache : EmbeddingCache ℤ) : BenchmarkFiles ℤ where
  report := false
  artifact := twoInputs.artifact
  dataset := ⟨protocol.datasetSha256, holdout.file⟩
  embeddings := ⟨"v1", cache⟩
  auditSha256 := "v1"
  auditEncoder := "e5"
  datasetAt path := if path = "train/dataset.json" then trainDirectory.dataset else earlier

theorem paths_twoInputs : twoInputs.paths = [trainDirectory, earlierDirectory] := by rfl

/-- An encoder that tells the first article from the others. -/
def antsFirst (text : String) (_ : Fin 1) : ℤ := if text = "Ants A" then 1 else -1

/-- The two requests are prepared, one of the vectors is reused and three are encoded; the holdout is
    admitted with its files as they are, and no longer when the earlier dataset is written anew. -/
theorem prepareStage_admitted_twoRequests : ∃ protocol holdout vectors cache,
    prepareStage markedRuntime ⟨"e5", 1⟩ (fun _ => "d2") twoInputs = .ok (protocol, holdout)
      ∧ encodeStage oneColumn holdout.articles trainDirectory.dataset.content.articles
        (some ⟨"Ants A|e5", ⟨1, [fun _ => 1]⟩⟩) none (encodeWith antsFirst) "e5" 1
        = .ok (vectors, ⟨1, 3⟩, cache)
      ∧ admissionChecks oneColumn ⟨"e5", 1⟩ protocol
        (filesWith earlierDirectory.dataset protocol holdout cache) = .ok ()
      ∧ admissionChecks oneColumn ⟨"e5", 1⟩ protocol
        (filesWith ⟨"d3", trainDirectory.dataset.content⟩ protocol holdout cache) ≠ .ok () := by
  have hrun : (match prepareStage markedRuntime ⟨"e5", 1⟩ (fun _ => "d2") twoInputs with
      | .ok (_, holdout) =>
        match encodeStage oneColumn holdout.articles trainDirectory.dataset.content.articles
          (some ⟨"Ants A|e5", ⟨1, [fun _ => 1]⟩⟩) none (encodeWith antsFirst) "e5" 1 with
        | .ok (_, audit, _) => decide (audit = ⟨1, 3⟩)
        | .error _ => false
      | .error _ => false) = true := by decide +kernel
  split at hrun
  · next protocol holdout hprepare =>
    split at hrun
    · next vectors audit cache hencode =>
      obtain rfl := of_decide_eq_true hrun
      have hhmac : ∀ salt text, markedRuntime.hmacSha256 salt text ≠ "" := by
        intro salt text hempty
        have hlength := congrArg String.length hempty
        simp [markedRuntime, String.length_append] at hlength
      have hfaithful (earlier : Stored DatasetFile) (h : earlier.Faithful earlierDirectory.dataset) :
          Faithful twoInputs protocol holdout cache (filesWith earlier protocol holdout cache) := by
        refine ⟨fun _ => rfl, fun _ _ => rfl, fun _ => rfl, ?_⟩
        rw [paths_twoInputs, List.forall_mem_cons, List.forall_mem_singleton]
        exact ⟨fun _ => rfl, h⟩
      have hadmitted (earlier : Stored DatasetFile) (h : earlier.Faithful earlierDirectory.dataset) :=
        prepareStage_admitted hhmac hprepare hencode (hfaithful earlier h)
      refine ⟨protocol, holdout, vectors, cache, hprepare, hencode, ?_, ?_⟩
      · refine (hadmitted earlierDirectory.dataset fun _ => rfl).mpr ?_
        refine ⟨rfl, rfl, rfl, rfl, rfl, rfl, ?_⟩
        rw [paths_twoInputs, List.forall_mem_cons, List.forall_mem_singleton]
        exact ⟨rfl, rfl⟩
      · rw [ne_eq, hadmitted ⟨"d3", trainDirectory.dataset.content⟩ (fun h => absurd h (by decide))]
        intro hunchanged
        have hsame : "d3" = "d1" :=
          hunchanged.priors earlierDirectory (by rw [paths_twoInputs]; simp)
        exact absurd hsame (by decide)
    · cases hrun
  · cases hrun

end Admission

end Oecophylla.Mind
