import Oecophylla.Mind.Sealed

namespace Oecophylla.Mind.Continuation

open Lib (alike_run)
open Oecophylla.Python (Float64)

/-!
# The search is blind to the test rows — `ai_pipeline/continuation.py`

Two searches that differ in their test rows, and so in the checksum of their dataset, are run side by
side, with the same stages broken off at the same places.

* `relabel` — a model with the checksum of the other dataset;
* `Alike` — two directories that agree on everything before the benchmark;
* `AlikeWrites`, `alike_take` — writes that keep them so, however many are made;
* `alikeWrites_stage` — the stages make such writes;
* `search_blind` — both searches select alike.
-/

variable {F R : Type} {lib : Library F R} {d e : Directory F R}

/-- The same model, trained on a dataset with another checksum. -/
def relabel (sha256 : String) (artifact : Artifact R) : Artifact R :=
  { artifact with datasetSha256 := sha256 }

/-- What the other search writes. -/
def relabelWrite (sha256 : String) : Write F R → Write F R
  | .trialModel name artifact => .trialModel name (relabel sha256 artifact)
  | .model artifact => .model (relabel sha256 artifact)
  | w => w

/-- Two searches over the same articles and the same rows but those of the test split. -/
structure SameButTest (d e : Directory F R) : Prop where
  articles : e.dataset.articles = d.dataset.articles
  rows : ∀ split, split ≠ .test → rowsOf split e.dataset = rowsOf split d.dataset
  protocol : e.protocol = { d.protocol with datasetSha256 := e.protocol.datasetSha256 }

/-- Everything before the benchmark is alike. -/
structure Alike (lib : Library F R) (d e : Directory F R) : Prop extends SameButTest d e where
  registered : d.protocol.datasetSha256 = lib.datasetSha256 d.dataset
  registered' : e.protocol.datasetSha256 = lib.datasetSha256 e.dataset
  embeddings : e.embeddings = d.embeddings
  trialModels : ∀ name,
    e.trialModels name = (d.trialModels name).map (relabel e.protocol.datasetSha256)
  trialReports : e.trialReports = d.trialReports
  model : e.model = d.model.map (relabel e.protocol.datasetSha256)
  selection : e.selection = d.selection
  opened : e.benchmarkOpened = d.benchmarkOpened

/-- Two prepared searches are alike when they differ in their test rows only. -/
theorem Prepared.alike (hd : Prepared lib d) (he : Prepared lib e) (hsame : SameButTest d e) :
    Alike lib d e where
  toSameButTest := hsame
  registered := hd.registered
  registered' := he.registered
  embeddings := he.embeddings.trans hd.embeddings.symm
  trialModels name := by
    rw [he.trialModels, hd.trialModels]
    rfl
  trialReports := funext fun name => (he.trialReports name).trans (hd.trialReports name).symm
  model := by
    rw [he.model, hd.model]
    rfl
  selection := he.selection.trans hd.selection.symm
  opened := he.unopened.trans hd.unopened.symm

/-! ### Writes -/

/-- The writes after the benchmark is opened. -/
def Late : Write F R → Prop
  | .benchmark _ => True
  | .result _ => True
  | _ => False

/-- The same writes up to the opening of the benchmark. -/
inductive AlikeWrites (sha256 : String) : List (Write F R) → List (Write F R) → Prop where
  | late {ws ws' : List (Write F R)} (h : ∀ w ∈ ws, Late w) (h' : ∀ w ∈ ws', Late w) :
      AlikeWrites sha256 ws ws'
  | cons (w : Write F R) {ws ws' : List (Write F R)} (h : AlikeWrites sha256 ws ws') :
      AlikeWrites sha256 (w :: ws) (relabelWrite sha256 w :: ws')

theorem AlikeWrites.nil (sha256 : String) : AlikeWrites sha256 ([] : List (Write F R)) [] :=
  .late (fun _ h => absurd h List.not_mem_nil) fun _ h => absurd h List.not_mem_nil

theorem datasetSha256_apply (w : Write F R) :
    (apply d w).protocol.datasetSha256 = d.protocol.datasetSha256 := by
  cases w <;> rfl

theorem update_map {α β : Type} (f : α → β) (g : String → Option α) (g' : String → Option β)
    (h : ∀ name, g' name = (g name).map f) (name : String) (a : α) (other : String) :
    Function.update g' name (some (f a)) other = (Function.update g name (some a) other).map f := by
  by_cases hother : other = name
  · subst hother
    rw [Function.update_self, Function.update_self]
    rfl
  · rw [Function.update_of_ne hother, Function.update_of_ne hother, h]

/-- One write in both. -/
theorem alike_apply (h : Alike lib d e) (w : Write F R) :
    Alike lib (apply d w) (apply e (relabelWrite e.protocol.datasetSha256 w)) := by
  cases w with
  | embeddings cache => exact { h with embeddings := rfl }
  | registerEmbeddings sha256 =>
    refine { h with protocol := ?_ }
    show ({ e.protocol with embeddingsSha256 := some sha256 } : SearchProtocol) = _
    rw [h.protocol]
    rfl
  | trialModel name artifact => exact { h with trialModels := update_map _ _ _ h.trialModels _ _ }
  | trialReport name report =>
    refine { h with trialReports := ?_ }
    show Function.update e.trialReports name (some report) = _
    rw [h.trialReports]
    rfl
  | model artifact => exact { h with model := rfl }
  | selection s => exact { h with selection := rfl }
  | openBenchmark => exact { h with opened := rfl }
  | benchmark inputs => exact { h with }
  | result r => exact { h with }

/-- Late writes of the first search do not matter. -/
theorem alike_late_left (h : Alike lib d e) {ws : List (Write F R)} (hws : ∀ w ∈ ws, Late w) :
    Alike lib (ws.foldl apply d) e := by
  induction ws generalizing d with
  | nil => exact h
  | cons w ws ih =>
    refine ih ?_ fun w hw => hws w (List.mem_cons_of_mem _ hw)
    have hlate := hws w List.mem_cons_self
    cases w <;> first | exact hlate.elim | exact { h with }

/-- Nor do those of the second. -/
theorem alike_late_right (h : Alike lib d e) {ws : List (Write F R)} (hws : ∀ w ∈ ws, Late w) :
    Alike lib d (ws.foldl apply e) := by
  induction ws generalizing e with
  | nil => exact h
  | cons w ws ih =>
    refine ih ?_ fun w hw => hws w (List.mem_cons_of_mem _ hw)
    have hlate := hws w List.mem_cons_self
    cases w <;> first | exact hlate.elim | exact { h with }

/-- However many of the writes are made. -/
theorem alike_take {ws ws' : List (Write F R)} (h : Alike lib d e)
    (hws : AlikeWrites e.protocol.datasetSha256 ws ws') (n : Nat) :
    Alike lib ((ws.take n).foldl apply d) ((ws'.take n).foldl apply e) := by
  generalize hsha : e.protocol.datasetSha256 = sha256 at hws
  induction hws generalizing d e n with
  | late hlate hlate' =>
    refine alike_late_right (alike_late_left h fun w hw => ?_) fun w hw => ?_
    · exact hlate w (List.mem_of_mem_take hw)
    · exact hlate' w (List.mem_of_mem_take hw)
  | cons w _ ih =>
    cases n with
    | zero => exact h
    | succ n =>
      subst hsha
      exact ih (alike_apply h w) n (datasetSha256_apply _)

/-! ### What the stages read -/

/-- The check of the inputs comes out the same. -/
theorem alike_checkedInputs (h : Alike lib d e) (parent : Artifact R) :
    checkedInputs lib e parent = checkedInputs lib d parent := by
  have hmodel : e.protocol.parentModelSha256 = d.protocol.parentModelSha256 := by rw [h.protocol]
  have hmanifest : e.protocol.parentManifestSha256 = d.protocol.parentManifestSha256 := by
    rw [h.protocol]
  unfold checkedInputs
  simp only [hmodel, hmanifest, h.registered, h.registered', ne_eq, not_true_eq_false, or_false]

theorem alike_embeddingsSha256 (h : Alike lib d e) :
    e.protocol.embeddingsSha256 = d.protocol.embeddingsSha256 := by
  rw [h.protocol]

theorem alike_configs (h : Alike lib d e) : e.protocol.configs = d.protocol.configs := by
  rw [h.protocol]

theorem alike_trainingVectors (h : Alike lib d e) :
    trainingVectors lib e = trainingVectors lib d := by
  unfold trainingVectors
  rw [h.embeddings, alike_embeddingsSha256 h, h.articles]

/-- A configuration is trained on the same arguments. -/
theorem alike_fitArguments (h : Alike lib d e) (config : Config) :
    fitArguments e.protocol config = fitArguments d.protocol config := by
  rw [h.protocol]
  rfl

theorem alike_train (h : Alike lib d e) : rowsOf .train e.dataset = rowsOf .train d.dataset :=
  h.rows .train (by decide)

/-- The validation rows are the same. -/
theorem alike_validation (h : Alike lib d e) :
    rowsOf .validation e.dataset = rowsOf .validation d.dataset :=
  h.rows .validation (by decide)

theorem alike_embeddingSha256 (h : Alike lib d e) : embeddingSha256 e = embeddingSha256 d := by
  unfold embeddingSha256
  rw [alike_embeddingsSha256 h]

/-- A trial is a candidate of both searches or of none. -/
theorem alike_trialCandidate (h : Alike lib d e) (name : String) :
    trialCandidate lib e name = trialCandidate lib d name := by
  unfold trialCandidate
  rw [h.trialReports, h.trialModels]
  cases d.trialReports name with
  | none => rfl
  | some report =>
    cases d.trialModels name with
    | none => rfl
    | some artifact => rfl

theorem alike_winningModel (h : Alike lib d e) (parent : R) (winner : String) :
    winningModel e parent winner
      = (winningModel d parent winner).map (relabel e.protocol.datasetSha256) := by
  unfold winningModel
  by_cases hparent : winner = "parent_r2"
  · rw [if_pos hparent, if_pos hparent, alike_embeddingSha256 h]
    rfl
  · rw [if_neg hparent, if_neg hparent, h.trialModels]

/-! ### The stages -/

theorem alikeWrites_compute {α : Type} {sha256 : String} {x : Except SearchRaised α}
    {next next' : α → Effects F R}
    (h : ∀ a, AlikeWrites sha256 (next a).writes (next' a).writes) :
    AlikeWrites sha256 (Effects.compute x next).writes (Effects.compute x next').writes := by
  cases x with
  | ok a => exact h a
  | error raised => exact .nil _

/-- Both write the same vectors. -/
theorem alikeWrites_encodeData (h : Alike lib d e) (encoding : Encoding F) :
    AlikeWrites e.protocol.datasetSha256 (encodeData lib d encoding).writes
      (encodeData lib e encoding).writes := by
  unfold encodeData
  rw [h.embeddings, h.articles]
  refine alikeWrites_compute fun reference => ?_
  cases d.embeddings with
  | some cache => exact alikeWrites_compute fun _ => .nil _
  | none =>
    exact alikeWrites_compute fun merged => alikeWrites_compute fun stored =>
      .cons (.embeddings stored.2) (.cons (.registerEmbeddings _) (.nil _))

/-- Both write the same models and reports, up to the checksum of the dataset. -/
theorem alikeWrites_trainLoop (h : Alike lib d e) (parent : R) (vectors : Vectors F)
    (trial : Option String) (rest : List (String × Config)) :
    AlikeWrites e.protocol.datasetSha256 (trainLoop lib d parent vectors trial rest).writes
      (trainLoop lib e parent vectors trial rest).writes := by
  induction rest with
  | nil =>
    unfold trainLoop
    rw [alike_configs h]
    split <;> exact .nil _
  | cons c rest ih =>
    obtain ⟨name, config⟩ := c
    unfold trainLoop
    rw [h.trialReports, h.trialModels, alike_fitArguments h, alike_train h, alike_validation h,
      alike_embeddingSha256 h, Option.isSome_map]
    by_cases hother : ∃ only ∈ trial, only ≠ name
    · rw [if_pos hother, if_pos hother]
      exact ih
    · rw [if_neg hother, if_neg hother]
      by_cases hreport : (d.trialReports name).isSome = true
      · rw [if_pos hreport, if_pos hreport]
        cases d.trialModels name with
        | none => exact .nil _
        | some artifact =>
          show AlikeWrites _ (if lib.loads artifact.ranker = false then _ else _ : Effects F R).writes
            (if lib.loads artifact.ranker = false then _ else _ : Effects F R).writes
          split
          · exact .nil _
          · exact ih
      · rw [if_neg hreport, if_neg hreport]
        refine alikeWrites_compute fun trained => ?_
        split
        · exact .nil _
        · refine .cons (.trialModel name _) ?_
          split
          · exact .nil _
          · exact .cons (.trialReport name _) ih

/-- Both freeze the same winner. -/
theorem alikeWrites_freezeWinner (h : Alike lib d e) (parent : R) (vectors : Vectors F) :
    AlikeWrites e.protocol.datasetSha256 (freezeWinner lib d parent vectors).writes
      (freezeWinner lib e parent vectors).writes := by
  unfold freezeWinner
  rw [h.selection, alike_validation h, alike_configs h, h.model, Option.isSome_map,
    funext fun c : String × Config => alike_trialCandidate h c.1]
  split
  · exact .nil _
  · refine alikeWrites_compute fun ndcg => alikeWrites_compute fun trials => ?_
    refine alikeWrites_compute fun winner => ?_
    rw [alike_winningModel h]
    cases winningModel d parent winner.1 with
    | none => exact .nil _
    | some artifact =>
      dsimp only [Option.map]
      split
      · exact .nil _
      · refine .cons (.model artifact) ?_
        show AlikeWrites _ (if lib.loads artifact.ranker = false then _ else _ : Effects F R).writes
          (if lib.loads artifact.ranker = false then _ else _ : Effects F R).writes
        split
        · exact .nil _
        · exact .cons (.selection _) (.nil _)

/-- After the benchmark is opened, no file is written that another stage reads. -/
theorem late_compute {α : Type} {x : Except SearchRaised α} {next : α → Effects F R}
    (h : ∀ a, ∀ w ∈ (next a).writes, Late w) : ∀ w ∈ (Effects.compute x next).writes, Late w := by
  cases x with
  | ok a => exact h a
  | error raised => exact fun _ hw => absurd hw List.not_mem_nil

theorem late_benchmark {x : Except SearchRaised (BenchmarkInputs F)}
    {y : BenchmarkInputs F → Except SearchRaised Float64} {raised : SearchRaised}
    {r : Float64 → TargetResult} :
    ∀ w ∈ (Effects.compute x fun inputs => .write (.benchmark inputs)
      (.compute (y inputs) fun ndcg => if isfinite ndcg = false then .throw raised
        else .write (.result (r ndcg)) .done) : Effects F R).writes, Late w := by
  refine late_compute fun inputs => ?_
  rintro w (_ | ⟨_, hw⟩)
  · trivial
  · refine late_compute (fun ndcg => ?_) w hw
    split
    · exact fun _ hw => absurd hw List.not_mem_nil
    · rintro w (_ | ⟨_, ⟨⟩⟩)
      trivial

/-- What the benchmark writes comes late. -/
theorem alikeWrites_benchmarkWinner (h : Alike lib d e) (vectors : Vectors F) :
    AlikeWrites e.protocol.datasetSha256 (benchmarkWinner lib d vectors).writes
      (benchmarkWinner lib e vectors).writes := by
  unfold benchmarkWinner
  rw [h.selection, h.model, h.opened]
  cases d.selection with
  | none => exact .nil _
  | some selection =>
    cases d.model with
    | none => exact .nil _
    | some artifact =>
      dsimp only [Option.map]
      show AlikeWrites _ (if lib.loads artifact.ranker = false then _ else _ : Effects F R).writes
        (if lib.loads artifact.ranker = false then _ else _ : Effects F R).writes
      split
      · exact .nil _
      · show AlikeWrites _
          (if selection.modelSha256 ≠ lib.modelSha256 artifact.ranker then _ else _ : Effects F R).writes
          (if selection.modelSha256 ≠ lib.modelSha256 artifact.ranker then _ else _ : Effects F R).writes
        split
        · exact .nil _
        · split
          · exact .nil _
          · exact .cons .openBenchmark (.late late_benchmark late_benchmark)

/-- The stages make alike writes in alike directories. -/
theorem alikeWrites_stage (h : Alike lib d e) (s : Stage F R) :
    AlikeWrites e.protocol.datasetSha256 (stage lib d s).writes (stage lib e s).writes := by
  cases s with
  | encode parent encoding =>
    show AlikeWrites _ (Effects.compute _ _).writes (Effects.compute _ _).writes
    rw [alike_checkedInputs h]
    exact alikeWrites_compute fun _ => alikeWrites_encodeData h encoding
  | train parent trial =>
    show AlikeWrites _ (Effects.compute _ _).writes (Effects.compute _ _).writes
    rw [alike_checkedInputs h, alike_trainingVectors h]
    refine alikeWrites_compute fun _ => alikeWrites_compute fun vectors => ?_
    unfold trainCandidates
    rw [h.selection, alike_configs h]
    split
    · exact .nil _
    · exact alikeWrites_trainLoop h _ _ _ _
  | select parent =>
    show AlikeWrites _ (Effects.compute _ _).writes (Effects.compute _ _).writes
    rw [alike_checkedInputs h, alike_trainingVectors h]
    exact alikeWrites_compute fun _ => alikeWrites_compute fun vectors =>
      alikeWrites_freezeWinner h _ _
  | benchmark parent =>
    show AlikeWrites _ (Effects.compute _ _).writes (Effects.compute _ _).writes
    rw [alike_checkedInputs h, alike_trainingVectors h]
    exact alikeWrites_compute fun _ => alikeWrites_compute fun vectors =>
      alikeWrites_benchmarkWinner h _

/-- **The search never uses the test rows.**  Two prepared searches that differ only in their test
    rows have the same vectors, reports, models and selection after the same stages, wherever these
    were broken off. -/
theorem search_blind (hd : Prepared lib d) (he : Prepared lib e) (hsame : SameButTest d e)
    (stages : List (Stage F R × Nat)) :
    let d' := runStages lib d stages
    let e' := runStages lib e stages
    e'.selection = d'.selection ∧ e'.trialReports = d'.trialReports ∧ e'.embeddings = d'.embeddings
      ∧ (∀ name, (e'.trialModels name).map Artifact.ranker = (d'.trialModels name).map Artifact.ranker)
      ∧ e'.model.map Artifact.ranker = d'.model.map Artifact.ranker
      ∧ e'.benchmarkOpened = d'.benchmarkOpened := by
  have hstep : ∀ (d e : Directory F R) (s : Stage F R) (n : Nat), Alike lib d e →
      Alike lib (step lib d (s, n)) (step lib e (s, n)) :=
    fun d e s n h => alike_take h (alikeWrites_stage h s) n
  have halike : Alike lib (runStages lib d stages) (runStages lib e stages) :=
    alike_run hstep (hd.alike he hsame) stages
  refine ⟨halike.selection, halike.trialReports, halike.embeddings, fun name => ?_, ?_,
    halike.opened⟩
  · rw [halike.trialModels, Option.map_map]
    rfl
  · rw [halike.model, Option.map_map]
    rfl

/-- The search with one more test row. -/
def twoTests : Directory ℤ ℕ :=
  { oneSearch with
    protocol := { oneSearch.protocol with datasetSha256 := "4" }
    dataset := { oneSearch.dataset with
      requests := oneSearch.dataset.requests
        ++ [⟨"r4", "v", "2019-11-15T09:55:22+00:00", [1], [0], [0], .test⟩] } }

theorem prepared_twoTests : Prepared countingLibrary twoTests :=
  ⟨rfl, rfl, rfl, fun _ => rfl, fun _ => rfl, rfl, rfl, rfl, rfl, rfl⟩

theorem sameButTest_twoTests : SameButTest oneSearch twoTests where
  articles := rfl
  rows split hsplit := by
    cases split with
    | train => rfl
    | validation => rfl
    | test => exact absurd rfl hsplit
  protocol := rfl

/-- Both select the same trial. -/
theorem search_blind_twoTests :
    let stages := [(.encode oneParent oneEncoding, 2), (.train oneParent none, 2),
      (.select oneParent, 2)]
    let d := runStages countingLibrary oneSearch stages
    let e := runStages countingLibrary twoTests stages
    (d.selection.map Selection.selected) = some "attention20" ∧ e.selection = d.selection :=
  ⟨by decide +kernel,
    (search_blind prepared_oneSearch prepared_twoTests sameButTest_twoTests _).1⟩

end Oecophylla.Mind.Continuation
