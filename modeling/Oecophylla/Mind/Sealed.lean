import Oecophylla.Mind.Continuation

namespace Oecophylla.Mind.Continuation

open Lib (Guarded Throughout except_mapError_eq_ok mapM_eq_ok_iff throughout_of_guarded
  throughout_run)
open Oecophylla.Python (Float64)

/-!
# The search is sealed — `ai_pipeline/continuation.py`

* `Extends` — nothing that is written is written again;
* `Trained`, `Chosen`, `Benchmarked` — where a report, a selection and a benchmark come from;
* `Sound` — every file of a directory comes from the files before it;
* `Allowed`, `sound_apply` — the writes that keep this so;
* `allowed_stage` — the stages make no others;
* `search_sealed` — in every run, wherever its stages are broken off.
-/

variable {F R : Type} {lib : Library F R} {d e : Directory F R}

/-! ### Write-once files -/

/-- What there is stays. -/
def Keeps {α : Type} (x y : Option α) : Prop := ∀ a ∈ x, a ∈ y

theorem keeps_refl {α : Type} (x : Option α) : Keeps x x := fun _ h => h

theorem keeps_of_none {α : Type} {x y : Option α} (h : x = none) : Keeps x y := by
  intro a ha
  rw [h] at ha
  cases ha

theorem isSome_of_keeps {α : Type} {x y : Option α} (h : Keeps x y) (hx : x.isSome = true) :
    y.isSome = true := by
  obtain ⟨a, ha⟩ := Option.isSome_iff_exists.mp hx
  rw [h a ha]
  rfl

/-- The second directory has all files of the first, unchanged. -/
structure Extends (d e : Directory F R) : Prop where
  dataset : e.dataset = d.dataset
  protocol : e.protocol = { d.protocol with embeddingsSha256 := e.protocol.embeddingsSha256 }
  embeddingsSha256 : Keeps d.protocol.embeddingsSha256 e.protocol.embeddingsSha256
  embeddings : Keeps d.embeddings e.embeddings
  trialModels : ∀ name, Keeps (d.trialModels name) (e.trialModels name)
  trialReports : ∀ name, Keeps (d.trialReports name) (e.trialReports name)
  model : Keeps d.model e.model
  selection : Keeps d.selection e.selection
  opened : d.benchmarkOpened = true → e.benchmarkOpened = true
  benchmark : Keeps d.benchmark e.benchmark
  result : Keeps d.result e.result
  /-- No trial is added to a winner. -/
  frozen : d.selection.isSome = true →
    e.trialModels = d.trialModels ∧ e.trialReports = d.trialReports

theorem Extends.refl (d : Directory F R) : Extends d d :=
  ⟨rfl, rfl, keeps_refl _, keeps_refl _, fun _ => keeps_refl _, fun _ => keeps_refl _, keeps_refl _,
    keeps_refl _, fun h => h, keeps_refl _, keeps_refl _, fun _ => ⟨rfl, rfl⟩⟩

theorem Extends.trans {c : Directory F R} (h : Extends c d) (h' : Extends d e) : Extends c e where
  dataset := h'.dataset.trans h.dataset
  protocol := by
    rw [h'.protocol, h.protocol]
  embeddingsSha256 a ha := h'.embeddingsSha256 a (h.embeddingsSha256 a ha)
  embeddings a ha := h'.embeddings a (h.embeddings a ha)
  trialModels name a ha := h'.trialModels name a (h.trialModels name a ha)
  trialReports name a ha := h'.trialReports name a (h.trialReports name a ha)
  model a ha := h'.model a (h.model a ha)
  selection a ha := h'.selection a (h.selection a ha)
  opened hd := h'.opened (h.opened hd)
  benchmark a ha := h'.benchmark a (h.benchmark a ha)
  result a ha := h'.result a (h.result a ha)
  frozen hs := by
    obtain ⟨hmodels, hreports⟩ := h'.frozen (isSome_of_keeps h.selection hs)
    rw [hmodels, hreports]
    exact h.frozen hs

/-- The check of the inputs comes out as before. -/
theorem checkedInputs_extends (h : Extends d e) (parent : Artifact R) :
    checkedInputs lib e parent = checkedInputs lib d parent := by
  unfold checkedInputs
  rw [h.protocol, h.dataset]

theorem fitArguments_extends (h : Extends d e) (config : Config) :
    fitArguments e.protocol config = fitArguments d.protocol config := by
  rw [h.protocol]
  rfl

/-- Vectors that are registered stay those of the later stages. -/
theorem trainingVectors_extends (h : Extends d e) {vectors : Vectors F}
    (hvectors : trainingVectors lib d = .ok vectors) : trainingVectors lib e = .ok vectors := by
  unfold trainingVectors at hvectors ⊢
  cases hcache : d.embeddings with
  | none =>
    rw [hcache] at hvectors
    cases hvectors
  | some cache =>
    rw [hcache] at hvectors
    cases hsha : d.protocol.embeddingsSha256 with
    | none =>
      rw [hsha] at hvectors
      cases hvectors
    | some sha256 =>
      rw [hsha] at hvectors
      rw [h.embeddings cache hcache, h.embeddingsSha256 sha256 hsha, h.dataset]
      exact hvectors

/-! ### Where files come from -/

/-- A trial: its model is what the trainer made of the registered parent on the train and validation
    rows, with the vectors in the directory. -/
structure Trained (lib : Library F R) (d : Directory F R) (name : String) (artifact : Artifact R)
    (report : TrialReport) : Prop where
  report_name : report.name = name
  model : report.modelSha256 = lib.modelSha256 artifact.ranker
  fitted : ∃ config parent vectors training, (name, config) ∈ d.protocol.configs
    ∧ checkedInputs lib d parent = .ok () ∧ trainingVectors lib d = .ok vectors
    ∧ lib.fit (fitArguments d.protocol config) (rowsOf .train d.dataset)
      (rowsOf .validation d.dataset) vectors parent.ranker = .ok (artifact.ranker, training)
    ∧ training.finite = true ∧ report.validationNdcgAt10 = training.validationNdcgAt10

/-- A selection: the first best on the validation rows, among the registered parent and the trials of
    all registered configurations; the model is that of the selected one. -/
structure Chosen (lib : Library F R) (d : Directory F R) (s : Selection) : Prop where
  candidates : ∃ parent vectors ndcg trials, checkedInputs lib d parent = .ok ()
    ∧ trainingVectors lib d = .ok vectors
    ∧ lib.validationNdcgAt10 parent.ranker (rowsOf .validation d.dataset) vectors = .ok ndcg
    ∧ List.Forall₂ (fun (c : String × Config) (trial : String × Float64) => trial.1 = c.1
      ∧ ∃ report ∈ d.trialReports c.1, trial.2 = report.validationNdcgAt10) d.protocol.configs trials
    ∧ s.candidates = ("parent_r2", ndcg) :: trials
    ∧ ∃ artifact ∈ d.model, s.modelSha256 = lib.modelSha256 artifact.ranker
      ∧ if s.selected = "parent_r2" then artifact.ranker = parent.ranker
        else artifact ∈ d.trialModels s.selected
  winner : ∃ before after, s.candidates = before ++ (s.selected, s.validationNdcgAt10) :: after
    ∧ (∀ c ∈ before, c.2 < s.validationNdcgAt10)
    ∧ ∀ c ∈ s.candidates, isfinite c.2 = true ∧ ¬ s.validationNdcgAt10 < c.2

/-- A benchmark: the test rows, for the selected model. -/
def Benchmarked (lib : Library F R) (d : Directory F R) (inputs : BenchmarkInputs F) : Prop :=
  ∃ s ∈ d.selection, ∃ artifact ∈ d.model, ∃ vectors, s.modelSha256 = lib.modelSha256 artifact.ranker
    ∧ trainingVectors lib d = .ok vectors
    ∧ compact (lib.historyLength artifact.ranker) d.dataset.articles d.dataset.requests vectors
      = .ok inputs

/-- A result: the evaluation of the selected model on the benchmark. -/
def Evaluated (lib : Library F R) (d : Directory F R) (r : TargetResult) : Prop :=
  ∃ s ∈ d.selection, ∃ artifact ∈ d.model, ∃ inputs ∈ d.benchmark,
    s.modelSha256 = lib.modelSha256 artifact.ranker ∧ r.selected = s.selected
    ∧ r.modelSha256 = s.modelSha256 ∧ lib.evaluate artifact.ranker inputs = .ok r.ndcgAt10
    ∧ isfinite r.ndcgAt10 = true
    ∧ (r.achieved = true ↔ .finite d.protocol.absoluteTarget < r.ndcgAt10)

/-- Vectors that are taken for those of the articles. -/
def Stored (lib : Library F R) (d : Directory F R) (cache : EmbeddingCache F) : Prop :=
  ∃ vectors, cachedEmbeddings lib.np d.dataset.articles (some cache) encodeNothing
    lib.encoderVersion lib.dimension = .ok (vectors, cache)

/-- Every file comes from the files before it. -/
structure Sound (lib : Library F R) (d : Directory F R) : Prop where
  embeddings : ∀ cache ∈ d.embeddings, Stored lib d cache
  registered : ∀ sha256 ∈ d.protocol.embeddingsSha256, ∃ cache ∈ d.embeddings,
    sha256 = lib.embeddingsSha256 cache
  trial : ∀ name, ∀ report ∈ d.trialReports name, ∃ artifact ∈ d.trialModels name,
    Trained lib d name artifact report
  selection : ∀ s ∈ d.selection, Chosen lib d s
  opened : d.benchmarkOpened = true → d.selection.isSome = true
  benchmark : ∀ inputs ∈ d.benchmark, d.benchmarkOpened = true ∧ Benchmarked lib d inputs
  result : ∀ r ∈ d.result, d.benchmarkOpened = true ∧ Evaluated lib d r

/-- A report goes on to come from its model. -/
theorem Trained.extends {name : String} {artifact : Artifact R} {report : TrialReport}
    (ht : Trained lib d name artifact report) (h : Extends d e) :
    Trained lib e name artifact report := by
  obtain ⟨config, parent, vectors, training, hmem, hchecked, hvectors, hfit, hfinite⟩ := ht.fitted
  refine ⟨ht.report_name, ht.model, config, parent, vectors, training, ?_, ?_, ?_, ?_, hfinite⟩
  · rw [h.protocol]
    exact hmem
  · rw [checkedInputs_extends h, hchecked]
  · exact trainingVectors_extends h hvectors
  · rw [fitArguments_extends h, h.dataset, hfit]

/-- A selection goes on to come from the reports. -/
theorem Chosen.extends {s : Selection} (hs : Chosen lib d s) (h : Extends d e) : Chosen lib e s := by
  obtain ⟨parent, vectors, ndcg, trials, hchecked, hvectors, hndcg, htrials, heq, artifact, hmodel,
    hsha, hselected⟩ := hs.candidates
  refine ⟨⟨parent, vectors, ndcg, trials, ?_, ?_, ?_, ?_, heq, artifact, h.model _ hmodel, hsha, ?_⟩,
    hs.winner⟩
  · rw [checkedInputs_extends h, hchecked]
  · exact trainingVectors_extends h hvectors
  · rw [h.dataset, hndcg]
  · have hconfigs : e.protocol.configs = d.protocol.configs := by rw [h.protocol]
    rw [hconfigs]
    refine htrials.imp fun c trial ⟨hname, report, hreport, hscore⟩ => ?_
    exact ⟨hname, report, h.trialReports _ _ hreport, hscore⟩
  · by_cases hparent : s.selected = "parent_r2"
    · rw [if_pos hparent] at hselected ⊢
      exact hselected
    · rw [if_neg hparent] at hselected ⊢
      exact h.trialModels _ _ hselected

theorem Benchmarked.extends {inputs : BenchmarkInputs F} (hb : Benchmarked lib d inputs)
    (h : Extends d e) : Benchmarked lib e inputs := by
  obtain ⟨s, hs, artifact, hmodel, vectors, hsha, hvectors, hcompact⟩ := hb
  refine ⟨s, h.selection s hs, artifact, h.model _ hmodel, vectors, hsha,
    trainingVectors_extends h hvectors, ?_⟩
  rw [h.dataset, hcompact]

theorem Evaluated.extends {r : TargetResult} (hr : Evaluated lib d r) (h : Extends d e) :
    Evaluated lib e r := by
  obtain ⟨s, hs, artifact, hmodel, inputs, hinputs, hrest⟩ := hr
  refine ⟨s, h.selection s hs, artifact, h.model _ hmodel, inputs, h.benchmark _ hinputs, ?_⟩
  rw [h.protocol]
  exact hrest

theorem Stored.extends {cache : EmbeddingCache F} (hc : Stored lib d cache) (h : Extends d e) :
    Stored lib e cache := by
  unfold Stored
  rw [h.dataset]
  exact hc

/-- A directory that has more files is sound when the new ones come from the files before them. -/
theorem Sound.extends (hs : Sound lib d) (h : Extends d e)
    (hembeddings : ∀ cache ∈ e.embeddings, cache ∈ d.embeddings ∨ Stored lib e cache)
    (hregistered : ∀ sha256 ∈ e.protocol.embeddingsSha256, sha256 ∈ d.protocol.embeddingsSha256
      ∨ ∃ cache ∈ e.embeddings, sha256 = lib.embeddingsSha256 cache)
    (htrial : ∀ name, ∀ report ∈ e.trialReports name, report ∈ d.trialReports name
      ∨ ∃ artifact ∈ e.trialModels name, Trained lib e name artifact report)
    (hselection : ∀ s ∈ e.selection, s ∈ d.selection ∨ Chosen lib e s)
    (hopened : e.benchmarkOpened = true → d.benchmarkOpened = true ∨ e.selection.isSome = true)
    (hbenchmark : ∀ inputs ∈ e.benchmark, inputs ∈ d.benchmark
      ∨ e.benchmarkOpened = true ∧ Benchmarked lib e inputs)
    (hresult : ∀ r ∈ e.result, r ∈ d.result ∨ e.benchmarkOpened = true ∧ Evaluated lib e r) :
    Sound lib e where
  embeddings cache hcache := by
    rcases hembeddings cache hcache with hold | hnew
    · exact (hs.embeddings cache hold).extends h
    · exact hnew
  registered sha256 hsha := by
    rcases hregistered sha256 hsha with hold | hnew
    · obtain ⟨cache, hcache, heq⟩ := hs.registered sha256 hold
      exact ⟨cache, h.embeddings cache hcache, heq⟩
    · exact hnew
  trial name report hreport := by
    rcases htrial name report hreport with hold | hnew
    · obtain ⟨artifact, hartifact, htrained⟩ := hs.trial name report hold
      exact ⟨artifact, h.trialModels name _ hartifact, htrained.extends h⟩
    · exact hnew
  selection s hmem := by
    rcases hselection s hmem with hold | hnew
    · exact (hs.selection s hold).extends h
    · exact hnew
  opened ho := by
    rcases hopened ho with hold | hnew
    · exact isSome_of_keeps h.selection (hs.opened hold)
    · exact hnew
  benchmark inputs hinputs := by
    rcases hbenchmark inputs hinputs with hold | hnew
    · obtain ⟨ho, hb⟩ := hs.benchmark inputs hold
      exact ⟨h.opened ho, hb.extends h⟩
    · exact hnew
  result r hr := by
    rcases hresult r hr with hold | hnew
    · obtain ⟨ho, he⟩ := hs.result r hold
      exact ⟨h.opened ho, he.extends h⟩
    · exact hnew

/-! ### The writes -/

/-- A write of a file that was not there, from what is there. -/
def Allowed (lib : Library F R) (d : Directory F R) : Write F R → Prop
  | .embeddings cache => d.embeddings = none ∧ Stored lib d cache
  | .registerEmbeddings sha256 => d.protocol.embeddingsSha256 = none
    ∧ ∃ cache ∈ d.embeddings, sha256 = lib.embeddingsSha256 cache
  | .trialModel name _ => d.selection = none ∧ d.trialModels name = none
  | .trialReport name report => d.selection = none ∧ d.trialReports name = none
    ∧ ∃ artifact ∈ d.trialModels name, Trained lib d name artifact report
  | .model _ => d.model = none
  | .selection s => d.selection = none ∧ Chosen lib d s
  | .openBenchmark => d.selection.isSome = true
  | .benchmark inputs => d.benchmark = none ∧ d.benchmarkOpened = true ∧ Benchmarked lib d inputs
  | .result r => d.result = none ∧ d.benchmarkOpened = true ∧ Evaluated lib d r

theorem keeps_update {α : Type} {f : String → Option α} {name : String} (hnone : f name = none)
    (a : α) (other : String) : Keeps (f other) (Function.update f name (some a) other) := by
  by_cases hother : other = name
  · rw [hother, hnone]
    exact keeps_of_none rfl
  · rw [Function.update_of_ne hother]
    exact keeps_refl _

/-- An allowed write writes nothing again. -/
theorem extends_apply {w : Write F R} (h : Allowed lib d w) : Extends d (apply d w) := by
  have hrefl := Extends.refl d
  cases w with
  | embeddings cache => exact { hrefl with embeddings := keeps_of_none h.1 }
  | registerEmbeddings sha256 =>
    exact { hrefl with protocol := rfl, embeddingsSha256 := keeps_of_none h.1 }
  | trialModel name artifact =>
    exact { hrefl with
      trialModels := keeps_update h.2 artifact
      frozen := fun hs => by
        rw [h.1] at hs
        cases hs }
  | trialReport name report =>
    exact { hrefl with
      trialReports := keeps_update h.2.1 report
      frozen := fun hs => by
        rw [h.1] at hs
        cases hs }
  | model artifact => exact { hrefl with model := keeps_of_none h }
  | selection s => exact { hrefl with selection := keeps_of_none h.1 }
  | openBenchmark => exact { hrefl with opened := fun _ => rfl }
  | benchmark inputs => exact { hrefl with benchmark := keeps_of_none h.1 }
  | result r => exact { hrefl with result := keeps_of_none h.1 }

/-- An allowed write leaves every file coming from the files before it. -/
theorem sound_apply {w : Write F R} (hs : Sound lib d) (h : Allowed lib d w) :
    Sound lib (apply d w) := by
  have hx := extends_apply h
  cases w with
  | embeddings cache =>
    refine hs.extends hx ?_ (fun _ => .inl) (fun _ _ => .inl) (fun _ => .inl) .inl (fun _ => .inl)
      (fun _ => .inl)
    rintro _ ⟨⟩
    exact .inr (h.2.extends hx)
  | registerEmbeddings sha256 =>
    refine hs.extends hx (fun _ => .inl) ?_ (fun _ _ => .inl) (fun _ => .inl) .inl (fun _ => .inl)
      (fun _ => .inl)
    rintro _ ⟨⟩
    exact .inr h.2
  | trialModel name artifact =>
    exact hs.extends hx (fun _ => .inl) (fun _ => .inl) (fun _ _ => .inl) (fun _ => .inl) .inl
      (fun _ => .inl) (fun _ => .inl)
  | trialReport name report =>
    refine hs.extends hx (fun _ => .inl) (fun _ => .inl) ?_ (fun _ => .inl) .inl (fun _ => .inl)
      (fun _ => .inl)
    intro other r hr
    by_cases hother : other = name
    · subst hother
      have hr : r ∈ Function.update d.trialReports other (some report) other := hr
      rw [Function.update_self] at hr
      obtain rfl : report = r := Option.some.inj hr
      obtain ⟨artifact, hartifact, htrained⟩ := h.2.2
      exact .inr ⟨artifact, hartifact, htrained.extends hx⟩
    · have hr : r ∈ Function.update d.trialReports name (some report) other := hr
      rw [Function.update_of_ne hother] at hr
      exact .inl hr
  | model artifact =>
    exact hs.extends hx (fun _ => .inl) (fun _ => .inl) (fun _ _ => .inl) (fun _ => .inl) .inl
      (fun _ => .inl) (fun _ => .inl)
  | selection s =>
    refine hs.extends hx (fun _ => .inl) (fun _ => .inl) (fun _ _ => .inl) ?_ .inl (fun _ => .inl)
      (fun _ => .inl)
    rintro _ ⟨⟩
    exact .inr (h.2.extends hx)
  | openBenchmark =>
    exact hs.extends hx (fun _ => .inl) (fun _ => .inl) (fun _ _ => .inl) (fun _ => .inl)
      (fun _ => .inr h) (fun _ => .inl) (fun _ => .inl)
  | benchmark inputs =>
    refine hs.extends hx (fun _ => .inl) (fun _ => .inl) (fun _ _ => .inl) (fun _ => .inl) .inl ?_
      (fun _ => .inl)
    rintro _ ⟨⟩
    exact .inr ⟨h.2.1, h.2.2.extends hx⟩
  | result r =>
    refine hs.extends hx (fun _ => .inl) (fun _ => .inl) (fun _ _ => .inl) (fun _ => .inl) .inl
      (fun _ => .inl) ?_
    rintro _ ⟨⟩
    exact .inr ⟨h.2.1, h.2.2.extends hx⟩

/-! ### The winner -/

theorem lt_of_lt_of_not_lt {x y z : Float64} (hx : isfinite x = true) (hy : isfinite y = true)
    (hz : isfinite z = true) (hxy : x < y) (hzy : ¬ z < y) : x < z := by
  cases x <;> cases y <;> cases z <;> try contradiction
  exact lt_of_lt_of_le (Float64.finite_lt_finite.mp hxy) (not_lt.mp hzy)

theorem lt_of_not_lt_of_lt {x y z : Float64} (hx : isfinite x = true) (hy : isfinite y = true)
    (hz : isfinite z = true) (hyx : ¬ y < x) (hyz : y < z) : x < z := by
  cases x <;> cases y <;> cases z <;> try contradiction
  exact lt_of_le_of_lt (not_lt.mp hyx) (Float64.finite_lt_finite.mp hyz)

theorem not_lt_of_lt {x y : Float64} (h : x < y) : ¬ y < x := by
  intro h'
  cases x with
  | finite a =>
    cases y with
    | finite b => exact lt_asymm (Float64.finite_lt_finite.mp h) (Float64.finite_lt_finite.mp h')
    | infinite b =>
      have hb : b = false := h
      have hb' : b = true := h'
      rw [hb] at hb'
      cases hb'
    | nan => exact h
  | infinite a =>
    cases y with
    | finite b =>
      have ha : a = true := h
      have ha' : a = false := h'
      rw [ha] at ha'
      cases ha'
    | infinite b =>
      have hb : b = false := h.2
      have hb' : b = true := h'.1
      rw [hb] at hb'
      cases hb'
    | nan => exact h
  | nan => exact h

/-- The first of the best ones stands where all before it are lower and none is higher. -/
theorem best_spec (top : String × Float64) (rest : List (String × Float64))
    (hfinite : ∀ c ∈ top :: rest, isfinite c.2 = true) :
    ∃ before after, top :: rest = before ++ best top rest :: after
      ∧ (∀ c ∈ before, c.2 < (best top rest).2) ∧ ∀ c ∈ top :: rest, ¬ (best top rest).2 < c.2 := by
  induction rest generalizing top with
  | nil =>
    refine ⟨[], [], rfl, fun _ h => absurd h List.not_mem_nil, ?_⟩
    rintro c (_ | ⟨_, ⟨⟩⟩)
    exact fun h => not_lt_of_lt h h
  | cons c rest ih =>
    have htop := hfinite top List.mem_cons_self
    have hc := hfinite c (List.mem_cons_of_mem _ List.mem_cons_self)
    have hrest : ∀ x ∈ rest, isfinite x.2 = true := fun x hx =>
      hfinite x (List.mem_cons_of_mem _ (List.mem_cons_of_mem _ hx))
    unfold best
    by_cases hlt : top.2 < c.2
    · rw [if_pos hlt]
      have hfin : ∀ x ∈ c :: rest, isfinite x.2 = true := fun x hx =>
        hfinite x (List.mem_cons_of_mem _ hx)
      obtain ⟨before, after, heq, hbefore, hall⟩ := ih c hfin
      have hb : isfinite (best c rest).2 = true :=
        hfin _ (heq ▸ List.mem_append_right _ List.mem_cons_self)
      have htopb := lt_of_lt_of_not_lt htop hc hb hlt (hall c List.mem_cons_self)
      refine ⟨top :: before, after, by rw [heq, List.cons_append], ?_, ?_⟩
      · rintro x (_ | ⟨_, hx⟩)
        · exact htopb
        · exact hbefore x hx
      · rintro x (_ | ⟨_, hx⟩)
        · exact not_lt_of_lt htopb
        · exact hall x hx
    · rw [if_neg hlt]
      have hfin : ∀ x ∈ top :: rest, isfinite x.2 = true := by
        rintro x (_ | ⟨_, hx⟩)
        · exact htop
        · exact hrest x hx
      obtain ⟨before, after, heq, hbefore, hall⟩ := ih top hfin
      have hb : isfinite (best top rest).2 = true :=
        hfin _ (heq ▸ List.mem_append_right _ List.mem_cons_self)
      cases before with
      | nil =>
        -- the top stays: what follows it gets one more that is not higher
        obtain ⟨htopb, hafter⟩ := List.cons.inj heq
        refine ⟨[], c :: rest, by rw [← htopb]; rfl, fun _ h => absurd h List.not_mem_nil, ?_⟩
        rintro x (_ | ⟨_, hx⟩)
        · exact hall top List.mem_cons_self
        · rcases List.mem_cons.mp hx with rfl | hx
          · rw [← htopb]
            exact hlt
          · exact hall x (List.mem_cons_of_mem _ hx)
      | cons first before =>
        obtain ⟨hfirst, htail⟩ := List.cons.inj heq
        have htopb : top.2 < (best top rest).2 := hfirst ▸ hbefore first List.mem_cons_self
        have hcb := lt_of_not_lt_of_lt hc htop hb hlt htopb
        refine ⟨top :: c :: before, after, congrArg (fun l => top :: c :: l) htail, ?_, ?_⟩
        · rintro x (_ | ⟨_, hx⟩)
          · exact htopb
          · rcases List.mem_cons.mp hx with rfl | hx
            · exact hcb
            · exact hbefore x (List.mem_cons_of_mem _ hx)
        · rintro x (_ | ⟨_, hx⟩)
          · exact not_lt_of_lt htopb
          · rcases List.mem_cons.mp hx with rfl | hx
            · exact not_lt_of_lt hcb
            · exact hall x (List.mem_cons_of_mem _ hx)

/-- The winner is the first of the best candidates. -/
theorem selectWinner_eq_ok {candidates : List (String × Float64)} {winner : String × Float64}
    (h : selectWinner candidates = .ok winner) :
    ∃ before after, candidates = before ++ winner :: after ∧ (∀ c ∈ before, c.2 < winner.2)
      ∧ ∀ c ∈ candidates, isfinite c.2 = true ∧ ¬ winner.2 < c.2 := by
  unfold selectWinner at h
  cases candidates with
  | nil => cases h
  | cons first rest =>
    dsimp only at h
    split at h
    · cases h
    · rename_i hany
      cases h
      have hfinite : ∀ c ∈ first :: rest, isfinite c.2 = true := by
        intro c hc
        by_contra hnot
        refine hany (List.any_eq_true.mpr ⟨c, hc, ?_⟩)
        rw [Bool.not_eq_true] at hnot
        rw [hnot]
        rfl
      obtain ⟨before, after, heq, hbefore, hall⟩ := best_spec first rest hfinite
      exact ⟨before, after, heq, hbefore, fun c hc => ⟨hfinite c hc, hall c hc⟩⟩

/-! ### The stages -/

theorem guarded_compute {α : Type} {G : Directory F R → Write F R → Prop}
    {x : Except SearchRaised α} {next : α → Effects F R}
    (h : ∀ a, x = .ok a → Guarded apply G d (next a).writes) :
    Guarded apply G d (Effects.compute x next).writes := by
  cases x with
  | ok a => exact h a rfl
  | error e => trivial

/-- The vectors are written once. -/
theorem guarded_encodeData (hs : Sound lib d) (encoding : Encoding F) :
    Guarded apply (Allowed lib) d (encodeData lib d encoding).writes := by
  refine guarded_compute fun reference _ => ?_
  cases hcache : d.embeddings with
  | some cache => exact guarded_compute fun _ _ => trivial
  | none =>
    refine guarded_compute fun merged _ => guarded_compute fun stored hstored => ?_
    have hnone : d.protocol.embeddingsSha256 = none := by
      rw [Option.eq_none_iff_forall_not_mem]
      intro sha256 hsha
      obtain ⟨cache, hmem, _⟩ := hs.registered sha256 hsha
      rw [hcache] at hmem
      cases hmem
    exact ⟨⟨hcache, stored.1,
      cachedEmbeddings_again (except_mapError_eq_ok.mp hstored) _⟩, ⟨hnone, stored.2, rfl, rfl⟩, trivial⟩

/-- A model comes before its report, and neither is written over. -/
theorem guarded_trainLoop {parent : Artifact R} {vectors : Vectors F} {trial : Option String}
    (hchecked : checkedInputs lib d parent = .ok ()) (hvectors : trainingVectors lib d = .ok vectors)
    {rest : List (String × Config)} (hsub : ∀ c ∈ rest, c ∈ d.protocol.configs)
    (hnodup : (rest.map Prod.fst).Nodup) {t : Directory F R} (hx : Extends d t)
    (hselection : t.selection = none)
    (hmodels : ∀ name ∈ rest.map Prod.fst, t.trialModels name = d.trialModels name)
    (hreports : ∀ name ∈ rest.map Prod.fst, t.trialReports name = d.trialReports name) :
    Guarded apply (Allowed lib) t (trainLoop lib d parent.ranker vectors trial rest).writes := by
  induction rest generalizing t with
  | nil =>
    unfold trainLoop
    split <;> trivial
  | cons c rest ih =>
    obtain ⟨name, config⟩ := c
    obtain ⟨hname, hnodup⟩ := List.nodup_cons.mp hnodup
    have hsub' : ∀ c ∈ rest, c ∈ d.protocol.configs := fun c hc =>
      hsub c (List.mem_cons_of_mem _ hc)
    have hskip := ih hsub' hnodup hx hselection (fun other h => hmodels other (List.mem_cons_of_mem _ h))
      (fun other h => hreports other (List.mem_cons_of_mem _ h))
    unfold trainLoop
    split
    · exact hskip
    · split
      · -- a trial with a report is only loaded
        split
        · trivial
        · split
          · trivial
          · exact hskip
      · rename_i hreport
        have hreport : t.trialReports name = none := by
          rw [hreports name List.mem_cons_self]
          exact Option.not_isSome_iff_eq_none.mp hreport
        refine guarded_compute fun trained hfit => ?_
        split
        · trivial
        · rename_i hmodel
          have hmodel : t.trialModels name = none := by
            rw [hmodels name List.mem_cons_self]
            exact Option.not_isSome_iff_eq_none.mp hmodel
          -- the model, and then its report
          have hallowed : Allowed lib t (.trialModel name
              ⟨trained.1, some trained.2, d.protocol.datasetSha256, embeddingSha256 d⟩) :=
            ⟨hselection, hmodel⟩
          have hx' := hx.trans (extends_apply hallowed)
          refine ⟨hallowed, ?_⟩
          split
          · trivial
          · rename_i hfinite
            rw [Bool.not_eq_false] at hfinite
            have hallowed' : Allowed lib (apply t (.trialModel name
                ⟨trained.1, some trained.2, d.protocol.datasetSha256, embeddingSha256 d⟩))
                (.trialReport name
                  ⟨name, trained.2.validationNdcgAt10, lib.modelSha256 trained.1⟩) := by
              have htrained : Trained lib d name
                  ⟨trained.1, some trained.2, d.protocol.datasetSha256, embeddingSha256 d⟩
                  ⟨name, trained.2.validationNdcgAt10, lib.modelSha256 trained.1⟩ :=
                ⟨rfl, rfl, config, parent, vectors, trained.2, hsub _ List.mem_cons_self, hchecked,
                  hvectors, hfit, hfinite, rfl⟩
              exact ⟨hselection, hreport, _, Function.update_self .., htrained.extends hx'⟩
            refine ⟨hallowed', ih hsub' hnodup (hx'.trans (extends_apply hallowed')) hselection ?_ ?_⟩
            · intro other hother
              have hne : other ≠ name := fun h => hname (h ▸ hother)
              show Function.update t.trialModels name _ other = _
              rw [Function.update_of_ne hne]
              exact hmodels other (List.mem_cons_of_mem _ hother)
            · intro other hother
              have hne : other ≠ name := fun h => hname (h ▸ hother)
              show Function.update t.trialReports name _ other = _
              rw [Function.update_of_ne hne]
              exact hreports other (List.mem_cons_of_mem _ hother)

/-- A candidate is a registered trial, with its report and its model. -/
theorem trialCandidate_eq_ok {name : String} {trial : String × Float64}
    (h : trialCandidate lib d name = .ok trial) :
    ∃ report ∈ d.trialReports name, ∃ artifact ∈ d.trialModels name,
      trial = (report.name, report.validationNdcgAt10)
        ∧ report.modelSha256 = lib.modelSha256 artifact.ranker
        ∧ lib.loads artifact.ranker = true := by
  unfold trialCandidate at h
  cases hreport : d.trialReports name with
  | none =>
    rw [hreport] at h
    cases h
  | some report =>
    rw [hreport] at h
    cases hartifact : d.trialModels name with
    | none =>
      rw [hartifact] at h
      cases h
    | some artifact =>
      rw [hartifact] at h
      dsimp only at h
      split at h
      · cases h
      · rename_i hloads
        split at h
        · cases h
        · rename_i hsha
          cases h
          exact ⟨report, rfl, artifact, rfl, rfl, not_not.mp hsha, by simpa using hloads⟩

/-- The winner is only frozen when all reports are there. -/
theorem guarded_freezeWinner (hs : Sound lib d) {parent : Artifact R} {vectors : Vectors F}
    (hchecked : checkedInputs lib d parent = .ok ())
    (hvectors : trainingVectors lib d = .ok vectors) :
    Guarded apply (Allowed lib) d (freezeWinner lib d parent.ranker vectors).writes := by
  unfold freezeWinner
  split
  · trivial
  · rename_i hselection
    refine guarded_compute fun ndcg hndcg => guarded_compute fun trials htrials => ?_
    refine guarded_compute fun winner hwinner => ?_
    cases hartifact : winningModel d parent.ranker winner.1 with
    | none => trivial
    | some artifact =>
      dsimp only
      split
      · trivial
      · rename_i hmodel
        have hallowed : Allowed lib d (.model artifact) := Option.not_isSome_iff_eq_none.mp hmodel
        refine ⟨hallowed, ?_⟩
        split
        · trivial
        · refine ⟨⟨Option.not_isSome_iff_eq_none.mp hselection, ?_⟩, trivial⟩
          have hx := extends_apply hallowed
          refine ⟨⟨parent, vectors, ndcg, trials, ?_, trainingVectors_extends hx hvectors, hndcg, ?_,
            rfl, artifact, rfl, rfl, ?_⟩, selectWinner_eq_ok hwinner⟩
          · rw [checkedInputs_extends hx, hchecked]
          · have heach : List.Forall₂ (· = ·)
                (d.protocol.configs.map fun c => trialCandidate lib d c.1) (trials.map .ok) := by
              rw [List.forall₂_eq_eq_eq]
              exact mapM_eq_ok_iff.mp htrials
            rw [List.forall₂_map_left_iff, List.forall₂_map_right_iff] at heach
            refine heach.imp fun c trial htrial => ?_
            obtain ⟨report, hreport, -, -, rfl, -⟩ := trialCandidate_eq_ok htrial
            obtain ⟨_, _, htrained⟩ := hs.trial c.1 report hreport
            exact ⟨htrained.report_name, report, hreport, rfl⟩
          · unfold winningModel at hartifact
            split at hartifact
            · rename_i hparent
              cases hartifact
              rw [if_pos hparent]
            · rename_i hparent
              rw [if_neg hparent]
              exact hartifact

/-- The benchmark is only written for a selection. -/
theorem guarded_benchmarkWinner (hs : Sound lib d) {vectors : Vectors F}
    (hvectors : trainingVectors lib d = .ok vectors) :
    Guarded apply (Allowed lib) d (benchmarkWinner lib d vectors).writes := by
  unfold benchmarkWinner
  split
  · trivial
  · trivial
  · rename_i selection artifact hselection hmodel
    split
    · trivial
    · split
      · trivial
      · rename_i hsha
        split
        · trivial
        · rename_i hopened
          have hopened : d.benchmarkOpened = false := by simpa using hopened
          have hallowed : Allowed lib d .openBenchmark := by
            show d.selection.isSome = true
            rw [hselection]
            rfl
          have hx := extends_apply hallowed
          refine ⟨hallowed, guarded_compute fun inputs hinputs => ?_⟩
          have hbenchmark : d.benchmark = none := by
            rw [Option.eq_none_iff_forall_not_mem]
            intro inputs hmem
            rw [(hs.benchmark inputs hmem).1] at hopened
            cases hopened
          have hresult : d.result = none := by
            rw [Option.eq_none_iff_forall_not_mem]
            intro r hmem
            rw [(hs.result r hmem).1] at hopened
            cases hopened
          have hallowed' : Allowed lib (apply d .openBenchmark) (.benchmark inputs) := by
            exact ⟨hbenchmark, rfl, selection, hselection, artifact, hmodel, vectors, not_not.mp hsha,
              trainingVectors_extends hx hvectors, except_mapError_eq_ok.mp hinputs⟩
          refine ⟨hallowed', guarded_compute fun ndcg hndcg => ?_⟩
          split
          · trivial
          · rename_i hfinite
            refine ⟨⟨hresult, rfl, selection, hselection, artifact, hmodel, inputs, rfl,
              not_not.mp hsha, rfl, rfl, hndcg, by simpa using hfinite, decide_eq_true_iff⟩, trivial⟩

/-- The writes of a stage are allowed, one after the other. -/
theorem guarded_stage (hs : Sound lib d) (s : Stage F R) :
    Guarded apply (Allowed lib) d (stage lib d s).writes := by
  cases s with
  | encode parent encoding => exact guarded_compute fun _ _ => guarded_encodeData hs encoding
  | train parent trial =>
    refine guarded_compute fun _ hchecked => guarded_compute fun vectors hvectors => ?_
    unfold trainCandidates
    split
    · trivial
    · rename_i hselection
      exact guarded_trainLoop hchecked hvectors (fun _ h => h) d.protocol.distinct (Extends.refl d)
        (Option.not_isSome_iff_eq_none.mp hselection) (fun _ _ => rfl) (fun _ _ => rfl)
  | select parent =>
    exact guarded_compute fun _ hchecked => guarded_compute fun vectors hvectors =>
      guarded_freezeWinner hs hchecked hvectors
  | benchmark parent =>
    exact guarded_compute fun _ _ => guarded_compute fun vectors hvectors =>
      guarded_benchmarkWinner hs hvectors

/-! ### Runs -/

/-- The directory that the stage `prepare` leaves. -/
structure Prepared (lib : Library F R) (d : Directory F R) : Prop where
  registered : d.protocol.datasetSha256 = lib.datasetSha256 d.dataset
  embeddingsSha256 : d.protocol.embeddingsSha256 = none
  embeddings : d.embeddings = none
  trialModels : ∀ name, d.trialModels name = none
  trialReports : ∀ name, d.trialReports name = none
  model : d.model = none
  selection : d.selection = none
  unopened : d.benchmarkOpened = false
  benchmark : d.benchmark = none
  result : d.result = none

/-- A prepared search is sound. -/
theorem Prepared.sound (h : Prepared lib d) : Sound lib d where
  embeddings := by simp [h.embeddings]
  registered := by simp [h.embeddingsSha256]
  trial := by simp [h.trialReports]
  selection := by simp [h.selection]
  opened := by simp [h.unopened]
  benchmark := by simp [h.benchmark]
  result := by simp [h.result]

/-- Any stages, each broken off after some of its writes. -/
def runStages (lib : Library F R) (d : Directory F R) (stages : List (Stage F R × Nat)) :
    Directory F R :=
  stages.foldl (step lib) d

/-- A sound search stays sound, wherever its stages are broken off. -/
theorem sound_runStages (hs : Sound lib d) (stages : List (Stage F R × Nat)) :
    Sound lib (runStages lib d stages) ∧ Extends d (runStages lib d stages) := by
  have hstage : ∀ e s, Sound lib e ∧ Extends d e →
      Throughout apply (fun e => Sound lib e ∧ Extends d e) e (stage lib e s).writes := by
    intro e s he
    refine throughout_of_guarded ?_ he (guarded_stage he.1 s)
    intro t w ht hw
    exact ⟨sound_apply ht.1 hw, ht.2.trans (extends_apply hw)⟩
  exact throughout_run hstage ⟨hs, Extends.refl d⟩ stages

/-- **The search is sealed.**  However the stages of a prepared search follow one another and
    wherever they are broken off, nothing that was written is written again, and no trial is added to
    a winner; every trial was trained on the registered inputs, the selection is the first best of the
    parent and all registered trials on the validation rows, and the benchmark and its result are of
    the selected model. -/
theorem search_sealed (hprepared : Prepared lib d) (before after : List (Stage F R × Nat)) :
    Sound lib (runStages lib d (before ++ after))
      ∧ Extends (runStages lib d before) (runStages lib d (before ++ after)) := by
  have hbefore := sound_runStages hprepared.sound before
  have hafter := sound_runStages hbefore.1 after
  unfold runStages at hafter ⊢
  rw [List.foldl_append]
  exact hafter

/-- Models are numbers; training adds the number of training rows, and a score is a tenth. -/
def countingLibrary : Library ℤ ℕ where
  np := oneColumn
  encoderVersion := "e5"
  dimension := 1
  fit := fun _ train _ _ ranker => .ok (ranker + train.length,
    ⟨.finite ((ranker + train.length) / 10), true, fun _ => ⟨_, rfl⟩⟩)
  validationNdcgAt10 := fun ranker _ _ => .ok (.finite (ranker / 10))
  loads := fun _ => true
  historyLength := fun _ => 1
  modelSha256 := fun ranker => toString ranker
  manifestSha256 := fun artifact => artifact.datasetSha256
  datasetSha256 := fun data => toString data.requests.length
  embeddingsSha256 := fun cache => cache.fingerprint
  evaluate := fun ranker _ => .ok (.finite (ranker / 10))

/-- A search with one configuration, over one request of each split. -/
def oneSearch : Directory ℤ ℕ where
  protocol := ⟨1, 6, 128, 2, 1 / 4, configs.take 1, "2", "", "3", none, by decide, by
    intro c hc
    exact List.mem_of_mem_take hc⟩
  dataset := ⟨fourArticles.take 2,
    [⟨"r1", "u", "2019-11-13T08:55:22+00:00", [0], [1], [1], .train⟩,
      ⟨"r2", "u", "2019-11-14T08:55:22+00:00", [0], [1], [1], .validation⟩,
      ⟨"r3", "u", "2019-11-15T08:55:22+00:00", [0], [1], [1], .test⟩],
    ⟨1, ([], []), 50, "2019-11-14T00:00:00+00:00", 0, "", [(.train, 1), (.validation, 1), (.test, 1)]⟩⟩
  embeddings := none
  trialModels := fun _ => none
  trialReports := fun _ => none
  model := none
  selection := none
  benchmarkOpened := false
  benchmark := none
  result := none

/-- The parent and the encoder of that search. -/
def oneParent : Artifact ℕ := ⟨2, none, "", ""⟩

def oneEncoding : Encoding ℤ :=
  ⟨fourArticles.take 1, some ⟨"ants|e5", ⟨1, [fun _ => 1]⟩⟩, encodeWith fun _ (_ : Fin 1) => 1⟩

theorem prepared_oneSearch : Prepared countingLibrary oneSearch :=
  ⟨rfl, rfl, rfl, fun _ => rfl, fun _ => rfl, rfl, rfl, rfl, rfl, rfl⟩

/-- The trial wins, and its benchmark exceeds the target. -/
theorem search_sealed_oneSearch :
    let before := [(.encode oneParent oneEncoding, 2), (.train oneParent none, 2),
      (.select oneParent, 2)]
    let after := [(.benchmark oneParent, 3)]
    let d := runStages countingLibrary oneSearch before
    let e := runStages countingLibrary oneSearch (before ++ after)
    (e.result.map fun r => (r.selected, r.achieved)) = some ("attention20", true)
      ∧ Sound countingLibrary e ∧ Extends d e :=
  ⟨by decide +kernel, search_sealed prepared_oneSearch _ _⟩

end Oecophylla.Mind.Continuation
