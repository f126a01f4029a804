import Oecophylla.Mind.Sealed

namespace Oecophylla.Mind.Continuation

open Lib (except_mapError_eq_ok keeps_foldl mapM_eq_ok_iff)
open Oecophylla.Python (Float64)

/-!
# Where a search cannot be resumed — `ai_pipeline/continuation.py`

A stage that is broken off between two files that belong together leaves the search without a way on:
the vectors without their checksum, a trial's model without its report, the winner's model without
the selection.

* `BrokenOff` — one of these states;
* `brokenOff_step` — every stage leaves the search in it;
* `encoded`, `trained`, `frozen` — otherwise each of the stages does its part;
* `search_completes_iff` — a search can still come to a selection exactly when it is not in one.
-/

variable {F R : Type} {lib : Library F R} {d e : Directory F R}

/-- The first of two files that belong together is there, and the second is not. -/
inductive BrokenOff (d : Directory F R) : Prop where
  | encode (hcache : d.embeddings.isSome = true) (hsha : d.protocol.embeddingsSha256 = none)
  | train (name : String) (hname : name ∈ d.protocol.configs.map Prod.fst)
      (hmodel : (d.trialModels name).isSome = true) (hreport : d.trialReports name = none)
  | select (hmodel : d.model.isSome = true) (hselection : d.selection = none)

/-! ### No way on -/

theorem trainingVectors_unregistered (hsha : d.protocol.embeddingsSha256 = none)
    (vectors : Vectors F) : trainingVectors lib d ≠ .ok vectors := by
  intro h
  unfold trainingVectors at h
  rw [hsha] at h
  split at h <;> cases h

/-- A search with a selection has all of its trials. -/
theorem Chosen.isSome_trialReports {s : Selection} (hs : Chosen lib d s) :
    ∀ name ∈ d.protocol.configs.map Prod.fst, (d.trialReports name).isSome = true := by
  intro name hname
  obtain ⟨c, hc, rfl⟩ := List.mem_map.mp hname
  obtain ⟨_, _, _, trials, _, _, _, htrials, _⟩ := hs.candidates
  obtain ⟨i, hi, rfl⟩ := List.getElem_of_mem hc
  obtain ⟨_, report, hreport, _⟩ := List.forall₂_iff_get.mp htrials |>.2 i hi
    (by rw [← htrials.length_eq]; exact hi)
  exact Option.isSome_iff_exists.mpr ⟨report, hreport⟩

theorem BrokenOff.selection (h : BrokenOff d) (hs : Sound lib d) : d.selection = none := by
  rw [Option.eq_none_iff_forall_not_mem]
  intro s hmem
  have hchosen := hs.selection s hmem
  cases h with
  | encode hcache hsha =>
    obtain ⟨_, vectors, _, _, _, hvectors, _⟩ := hchosen.candidates
    exact trainingVectors_unregistered hsha vectors hvectors
  | train name hname hmodel hreport =>
    have hsome := hchosen.isSome_trialReports name hname
    rw [hreport] at hsome
    cases hsome
  | select hmodel hselection =>
    rw [hselection] at hmem
    cases hmem

theorem mem_compute {α : Type} {x : Except SearchRaised α} {next : α → Effects F R} {w : Write F R}
    (h : w ∈ (Effects.compute x next).writes) : ∃ a, x = .ok a ∧ w ∈ (next a).writes := by
  cases x with
  | ok a => exact ⟨a, rfl, h⟩
  | error raised => exact absurd h List.not_mem_nil

/-- A write of the vectors or of their checksum. -/
def OfVectors : Write F R → Prop
  | .embeddings _ => True
  | .registerEmbeddings _ => True
  | _ => False

/-- A write of a registered trial that has no report. -/
def OfTrials (d : Directory F R) : Write F R → Prop
  | .trialModel name _ => d.trialModels name = none
  | .trialReport name _ => d.trialModels name = none
  | _ => False

theorem ofVectors_encodeData (encoding : Encoding F) :
    ∀ w ∈ (encodeData lib d encoding).writes, OfVectors w := by
  intro w hw
  obtain ⟨reference, -, hw⟩ := mem_compute hw
  split at hw
  · obtain ⟨_, -, hw⟩ := mem_compute hw
    exact absurd hw List.not_mem_nil
  · obtain ⟨merged, -, hw⟩ := mem_compute hw
    obtain ⟨stored, -, hw⟩ := mem_compute hw
    rcases hw with _ | ⟨_, _ | ⟨_, ⟨⟩⟩⟩ <;> trivial

theorem ofTrials_trainLoop {parent : R} {vectors : Vectors F} {trial : Option String}
    (rest : List (String × Config)) :
    ∀ w ∈ (trainLoop lib d parent vectors trial rest).writes, OfTrials d w := by
  induction rest with
  | nil =>
    intro w hw
    unfold trainLoop at hw
    split at hw <;> exact absurd hw List.not_mem_nil
  | cons c rest ih =>
    obtain ⟨name, config⟩ := c
    intro w hw
    unfold trainLoop at hw
    split at hw
    · exact ih w hw
    · split at hw
      · split at hw
        · exact absurd hw List.not_mem_nil
        · split at hw
          · exact absurd hw List.not_mem_nil
          · exact ih w hw
      · obtain ⟨trained, -, hw⟩ := mem_compute hw
        split at hw
        · exact absurd hw List.not_mem_nil
        · rename_i hmodel
          have hmodel := Option.not_isSome_iff_eq_none.mp hmodel
          rcases hw with _ | ⟨_, hw⟩
          · exact hmodel
          · split at hw
            · exact absurd hw List.not_mem_nil
            · rcases hw with _ | ⟨_, hw⟩
              · exact hmodel
              · exact ih w hw

theorem ofVectors_stage (parent : Artifact R) (encoding : Encoding F) :
    ∀ w ∈ (stage lib d (.encode parent encoding)).writes, OfVectors w := by
  intro w hw
  obtain ⟨_, -, hw⟩ := mem_compute hw
  exact ofVectors_encodeData encoding w hw

theorem ofTrials_stage (parent : Artifact R) (trial : Option String) :
    ∀ w ∈ (stage lib d (.train parent trial)).writes, OfTrials d w := by
  intro w hw
  obtain ⟨_, -, hw⟩ := mem_compute hw
  obtain ⟨vectors, -, hw⟩ := mem_compute hw
  unfold trainCandidates at hw
  split at hw
  · exact absurd hw List.not_mem_nil
  · exact ofTrials_trainLoop _ w hw

/-- What the stage `encode` writes into a search that already has vectors. -/
theorem encodeData_again (hcache : d.embeddings.isSome = true) (encoding : Encoding F) :
    (encodeData lib d encoding).writes = [] := by
  obtain ⟨cache, hcache⟩ := Option.isSome_iff_exists.mp hcache
  rw [List.eq_nil_iff_forall_not_mem]
  intro w hw
  obtain ⟨reference, -, hw⟩ := mem_compute hw
  rw [hcache] at hw
  obtain ⟨_, -, hw⟩ := mem_compute hw
  exact List.not_mem_nil hw

theorem benchmarkWinner_unselected (hselection : d.selection = none) (vectors : Vectors F) :
    (benchmarkWinner lib d vectors).writes = [] := by
  unfold benchmarkWinner
  rw [hselection]
  rfl

/-- The winner is not chosen while a trial has no report, or when there is a model already. -/
theorem freezeWinner_brokenOff {parent : R} {vectors : Vectors F}
    (h : (∃ name ∈ d.protocol.configs.map Prod.fst, d.trialReports name = none)
      ∨ d.model.isSome = true) :
    (freezeWinner lib d parent vectors).writes = [] := by
  unfold freezeWinner
  split
  · rfl
  · rw [List.eq_nil_iff_forall_not_mem]
    intro w hw
    obtain ⟨ndcg, -, hw⟩ := mem_compute hw
    obtain ⟨trials, htrials, hw⟩ := mem_compute hw
    obtain ⟨winner, -, hw⟩ := mem_compute hw
    rcases h with ⟨name, hname, hreport⟩ | hmodel
    · obtain ⟨c, hc, rfl⟩ := List.mem_map.mp hname
      have hmem : trialCandidate lib d c.1 ∈ trials.map .ok := by
        rw [← mapM_eq_ok_iff.mp htrials]
        exact List.mem_map_of_mem hc
      obtain ⟨trial, -, htrial⟩ := List.mem_map.mp hmem
      obtain ⟨report, hsome, -⟩ := trialCandidate_eq_ok htrial.symm
      rw [hreport] at hsome
      cases hsome
    · split at hw
      · exact List.not_mem_nil hw
      · rw [if_pos hmodel] at hw
        exact List.not_mem_nil hw

/-- The stage `encode` leaves the later files. -/
theorem foldl_ofVectors {ws : List (Write F R)} (hws : ∀ w ∈ ws, OfVectors w) :
    (ws.foldl apply d).trialModels = d.trialModels ∧ (ws.foldl apply d).trialReports = d.trialReports
      ∧ (ws.foldl apply d).model = d.model ∧ (ws.foldl apply d).selection = d.selection
      ∧ (ws.foldl apply d).protocol.configs = d.protocol.configs := by
  refine keeps_foldl (P := fun e : Directory F R => e.trialModels = d.trialModels
    ∧ e.trialReports = d.trialReports ∧ e.model = d.model ∧ e.selection = d.selection
    ∧ e.protocol.configs = d.protocol.configs) ?_ hws ⟨rfl, rfl, rfl, rfl, rfl⟩
  intro e w hw he
  cases w <;> first | exact hw.elim | exact he

/-- The stage `train` leaves the other files, and the trials that have a model. -/
theorem foldl_ofTrials {ws : List (Write F R)} (hws : ∀ w ∈ ws, OfTrials d w) :
    (ws.foldl apply d).embeddings = d.embeddings ∧ (ws.foldl apply d).protocol = d.protocol
      ∧ (ws.foldl apply d).model = d.model ∧ (ws.foldl apply d).selection = d.selection
      ∧ ∀ name, (d.trialModels name).isSome = true →
        (ws.foldl apply d).trialModels name = d.trialModels name
          ∧ (ws.foldl apply d).trialReports name = d.trialReports name := by
  refine keeps_foldl (P := fun e : Directory F R => e.embeddings = d.embeddings
    ∧ e.protocol = d.protocol ∧ e.model = d.model ∧ e.selection = d.selection
    ∧ ∀ name, (d.trialModels name).isSome = true → e.trialModels name = d.trialModels name
      ∧ e.trialReports name = d.trialReports name) ?_ hws
    ⟨rfl, rfl, rfl, rfl, fun _ _ => ⟨rfl, rfl⟩⟩
  rintro e w hw ⟨hcache, hprotocol, hmodel, hselection, htrials⟩
  have hne : ∀ {written name : String}, d.trialModels written = none →
      (d.trialModels name).isSome = true → name ≠ written := by
    rintro written _ hnone hsome rfl
    rw [hnone] at hsome
    cases hsome
  cases w with
  | trialModel written artifact =>
    refine ⟨hcache, hprotocol, hmodel, hselection, fun name hname => ⟨?_, (htrials name hname).2⟩⟩
    show Function.update e.trialModels written _ name = _
    rw [Function.update_of_ne (hne hw hname)]
    exact (htrials name hname).1
  | trialReport written report =>
    refine ⟨hcache, hprotocol, hmodel, hselection, fun name hname => ⟨(htrials name hname).1, ?_⟩⟩
    show Function.update e.trialReports written _ name = _
    rw [Function.update_of_ne (hne hw hname)]
    exact (htrials name hname).2
  | embeddings _ => exact hw.elim
  | registerEmbeddings _ => exact hw.elim
  | model _ => exact hw.elim
  | selection _ => exact hw.elim
  | openBenchmark => exact hw.elim
  | benchmark _ => exact hw.elim
  | result _ => exact hw.elim

/-- A search that is broken off stays so, whatever stage is called. -/
theorem brokenOff_step (h : BrokenOff d) (hs : Sound lib d) (a : Stage F R × Nat) :
    BrokenOff (step lib d a) := by
  obtain ⟨s, n⟩ := a
  have hselection := h.selection hs
  have hsame : (∀ w, w ∉ (stage lib d s).writes) → BrokenOff (step lib d (s, n)) := by
    intro hnone
    show BrokenOff (((stage lib d s).writes.take n).foldl apply d)
    rw [List.eq_nil_iff_forall_not_mem.mpr hnone, List.take_nil]
    exact h
  cases s with
  | encode parent encoding =>
    obtain ⟨hmodels, hreports, hkept, hunselected, hconfigs⟩ := foldl_ofVectors (d := d)
      fun w hw => ofVectors_stage parent encoding w (List.mem_of_mem_take (i := n) hw)
    cases h with
    | encode hcache hsha =>
      refine hsame fun w hw => ?_
      obtain ⟨_, -, hw⟩ := mem_compute hw
      rw [encodeData_again hcache] at hw
      exact List.not_mem_nil hw
    | train name hname hmodel hreport =>
      refine .train name ?_ ?_ ?_
      · exact hconfigs ▸ hname
      · exact hmodels ▸ hmodel
      · exact (congrFun hreports name).trans hreport
    | select hmodel _ => exact .select (hkept ▸ hmodel) (hunselected.trans hselection)
  | train parent trial =>
    obtain ⟨hcaches, hprotocol, hkept, hunselected, htrials⟩ := foldl_ofTrials (d := d)
      fun w hw => ofTrials_stage parent trial w (List.mem_of_mem_take (i := n) hw)
    cases h with
    | encode hcache hsha =>
      exact .encode (hcaches ▸ hcache) ((congrArg _ hprotocol).trans hsha)
    | train name hname hmodel hreport =>
      obtain ⟨hmodels, hreports⟩ := htrials name hmodel
      refine .train name ?_ ?_ (hreports.trans hreport)
      · exact hprotocol ▸ hname
      · exact hmodels ▸ hmodel
    | select hmodel _ => exact .select (hkept ▸ hmodel) (hunselected.trans hselection)
  | select parent =>
    refine hsame fun w hw => ?_
    obtain ⟨_, -, hw⟩ := mem_compute hw
    obtain ⟨vectors, hvectors, hw⟩ := mem_compute hw
    cases h with
    | encode hcache hsha => exact trainingVectors_unregistered hsha vectors hvectors
    | train name hname hmodel hreport =>
      rw [freezeWinner_brokenOff (.inl ⟨name, hname, hreport⟩)] at hw
      exact List.not_mem_nil hw
    | select hmodel _ =>
      rw [freezeWinner_brokenOff (.inr hmodel)] at hw
      exact List.not_mem_nil hw
  | benchmark parent =>
    refine hsame fun w hw => ?_
    obtain ⟨_, -, hw⟩ := mem_compute hw
    obtain ⟨vectors, -, hw⟩ := mem_compute hw
    rw [benchmarkWinner_unselected hselection] at hw
    exact List.not_mem_nil hw

theorem brokenOff_runStages (h : BrokenOff d) (hs : Sound lib d) (stages : List (Stage F R × Nat)) :
    BrokenOff (runStages lib d stages) := by
  induction stages generalizing d with
  | nil => exact h
  | cons a stages ih =>
    exact ih (brokenOff_step h hs a) (sound_runStages hs [a]).1

/-! ### The stages do their part -/

/-- The later stages can do their part: the parent is the registered one and models load, every
    configuration can be trained, and the parent's score is finite. -/
structure Works (lib : Library F R) (d : Directory F R) (parent : Artifact R) : Prop where
  checked : checkedInputs lib d parent = .ok ()
  fits : ∀ c ∈ d.protocol.configs, ∀ vectors, ∃ trained,
    lib.fit (fitArguments d.protocol c.2) (rowsOf .train d.dataset) (rowsOf .validation d.dataset)
      vectors parent.ranker = .ok trained ∧ trained.2.finite = true
  scores : ∀ vectors, ∃ q,
    lib.validationNdcgAt10 parent.ranker (rowsOf .validation d.dataset) vectors = .ok (.finite q)
  loads : ∀ ranker, lib.loads ranker = true

/-- A stage that is not broken off. -/
def complete (lib : Library F R) (d : Directory F R) (s : Stage F R) : Directory F R :=
  step lib d (s, (stage lib d s).writes.length)

theorem complete_eq (s : Stage F R) : complete lib d s = (stage lib d s).writes.foldl apply d := by
  show ((stage lib d s).writes.take _).foldl apply d = _
  rw [List.take_length]

theorem outcome_compute {α : Type} {x : Except SearchRaised α} {next : α → Effects F R}
    (h : (Effects.compute x next).outcome = .ok ()) : ∃ a, x = .ok a ∧ (next a).outcome = .ok () := by
  cases x with
  | ok a => exact ⟨a, rfl, h⟩
  | error raised => cases h

/-- Without vectors, a stage `encode` that succeeds writes them and their checksum. -/
theorem encodeData_new (hnone : d.embeddings = none) {encoding : Encoding F}
    (hok : (encodeData lib d encoding).outcome = .ok ()) : ∃ cache, Stored lib d cache
      ∧ (encodeData lib d encoding).writes
        = [.embeddings cache, .registerEmbeddings (lib.embeddingsSha256 cache)] := by
  unfold encodeData at hok ⊢
  rw [hnone] at hok ⊢
  obtain ⟨reference, href, hok⟩ := outcome_compute hok
  rw [href, Effects.compute_ok]
  obtain ⟨merged, hmerged, hok⟩ := outcome_compute hok
  obtain ⟨stored, hstored, -⟩ := outcome_compute hok
  refine ⟨stored.2, ⟨stored.1, cachedEmbeddings_again (except_mapError_eq_ok.mp hstored) _⟩, ?_⟩
  dsimp only
  rw [hmerged, Effects.compute_ok, hstored]
  rfl

/-- The vectors of a search that has them with their checksum. -/
theorem trainingVectors_of_stored {cache : EmbeddingCache F} (hcache : d.embeddings = some cache)
    (hsha : d.protocol.embeddingsSha256 = some (lib.embeddingsSha256 cache))
    (hstored : Stored lib d cache) : ∃ vectors, trainingVectors lib d = .ok vectors := by
  obtain ⟨vectors, hvectors⟩ := hstored
  refine ⟨vectors, ?_⟩
  unfold trainingVectors
  rw [hcache, hsha]
  dsimp only
  rw [if_neg (not_not_intro rfl), hvectors]
  rfl

section Resumed

variable {parent : Artifact R} {encoding : Encoding F}

theorem encoded (hs : Sound lib d) (hbroken : ¬ BrokenOff d)
    (hchecked : checkedInputs lib d parent = .ok ())
    (hencodes : d.embeddings = none → (encodeData lib d encoding).outcome = .ok ()) :
    ∃ vectors, trainingVectors lib (complete lib d (.encode parent encoding)) = .ok vectors := by
  have hwrites : (stage lib d (.encode parent encoding)).writes = (encodeData lib d encoding).writes := by
    dsimp only [stage]
    rw [hchecked, Effects.compute_ok]
  rw [complete_eq, hwrites]
  cases hcache : d.embeddings with
  | none =>
    obtain ⟨cache, hstored, hnew⟩ := encodeData_new hcache (hencodes hcache)
    rw [hnew]
    exact trainingVectors_of_stored rfl rfl hstored
  | some cache =>
    rw [encodeData_again (Option.isSome_iff_exists.mpr ⟨cache, hcache⟩)]
    show ∃ vectors, trainingVectors lib d = .ok vectors
    cases hsha : d.protocol.embeddingsSha256 with
    | none => exact absurd (.encode (Option.isSome_iff_exists.mpr ⟨cache, hcache⟩) hsha) hbroken
    | some sha256 =>
      obtain ⟨cache', hcache', rfl⟩ := hs.registered sha256 hsha
      exact trainingVectors_of_stored hcache' hsha (hs.embeddings cache' hcache')

/-- The loop comes to every trial that has no report. -/
theorem trainLoop_reports (hloads : ∀ ranker, lib.loads ranker = true) {vectors : Vectors F}
    {rest : List (String × Config)}
    (hfits : ∀ c ∈ rest, ∃ trained, lib.fit (fitArguments d.protocol c.2) (rowsOf .train d.dataset)
      (rowsOf .validation d.dataset) vectors parent.ranker = .ok trained ∧ trained.2.finite = true)
    (hpaired : ∀ name ∈ rest.map Prod.fst,
      (d.trialModels name).isSome = (d.trialReports name).isSome) :
    ∀ name ∈ rest.map Prod.fst, (d.trialReports name).isSome = true
      ∨ ∃ report, .trialReport name report ∈ (trainLoop lib d parent.ranker vectors none rest).writes := by
  induction rest with
  | nil => exact fun _ h => absurd h List.not_mem_nil
  | cons c rest ih =>
    obtain ⟨name, config⟩ := c
    have ih := ih (fun c hc => hfits c (List.mem_cons_of_mem _ hc))
      fun other h => hpaired other (List.mem_cons_of_mem _ h)
    have hpair := hpaired name List.mem_cons_self
    have hnone : ¬ ∃ only ∈ (none : Option String), only ≠ name := by
      rintro ⟨_, h, _⟩
      cases h
    unfold trainLoop
    rw [if_neg hnone]
    by_cases hreport : (d.trialReports name).isSome = true
    · rw [if_pos hreport]
      rw [hreport] at hpair
      obtain ⟨artifact, hartifact⟩ := Option.isSome_iff_exists.mp hpair
      rw [hartifact]
      dsimp only
      rw [if_neg (by rw [hloads]; decide)]
      rintro other (_ | ⟨_, hother⟩)
      · exact .inl hreport
      · exact ih other hother
    · rw [if_neg hreport]
      obtain ⟨trained, hfit, hfinite⟩ := hfits _ List.mem_cons_self
      rw [hfit, Effects.compute_ok, if_neg (by rw [hpair]; exact hreport), hfinite]
      rintro other (_ | ⟨_, hother⟩)
      · exact .inr ⟨_, List.mem_cons_of_mem _ List.mem_cons_self⟩
      · rcases ih other hother with hsome | ⟨report, hmem⟩
        · exact .inl hsome
        · exact .inr ⟨report, List.mem_cons_of_mem _ (List.mem_cons_of_mem _ hmem)⟩

/-- A report that is written is there in the end. -/
theorem isSome_foldl_report {name : String} {ws : List (Write F R)}
    (h : (d.trialReports name).isSome = true ∨ ∃ report, .trialReport name report ∈ ws) :
    ((ws.foldl apply d).trialReports name).isSome = true := by
  induction ws generalizing d with
  | nil =>
    rcases h with h | ⟨_, h⟩
    · exact h
    · cases h
  | cons w ws ih =>
    refine ih ?_
    have hkeep : (d.trialReports name).isSome = true →
        ((apply d w).trialReports name).isSome = true := by
      intro hsome
      cases w with
      | trialReport other report =>
        show (Function.update d.trialReports other (some report) name).isSome = true
        by_cases hother : name = other
        · rw [hother, Function.update_self]
          rfl
        · rw [Function.update_of_ne hother]
          exact hsome
      | _ => exact hsome
    rcases h with h | ⟨report, _ | ⟨_, h⟩⟩
    · exact .inl (hkeep h)
    · left
      show (Function.update d.trialReports name (some report) name).isSome = true
      rw [Function.update_self]
      rfl
    · exact .inr ⟨report, h⟩

theorem trained (hs : Sound lib d) (hbroken : ¬ BrokenOff d) (hselection : d.selection = none)
    (hworks : Works lib d parent) {vectors : Vectors F}
    (hvectors : trainingVectors lib d = .ok vectors) :
    ∀ name ∈ d.protocol.configs.map Prod.fst,
      ((complete lib d (.train parent none)).trialReports name).isSome = true := by
  intro name hname
  rw [complete_eq]
  refine isSome_foldl_report ?_
  have hwrites : (stage lib d (.train parent none)).writes
      = (trainLoop lib d parent.ranker vectors none d.protocol.configs).writes := by
    dsimp only [stage]
    rw [hworks.checked, Effects.compute_ok, hvectors, Effects.compute_ok]
    unfold trainCandidates
    rw [hselection]
    rfl
  rw [hwrites]
  refine trainLoop_reports hworks.loads (fun c hc => hworks.fits c hc vectors) ?_ name hname
  intro name hname
  cases hreport : d.trialReports name with
  | some report =>
    obtain ⟨artifact, hartifact, -⟩ := hs.trial name report hreport
    rw [hartifact]
    rfl
  | none =>
    cases hmodel : d.trialModels name with
    | none => rfl
    | some artifact =>
      refine absurd (.train name hname ?_ hreport) hbroken
      rw [hmodel]
      rfl

/-- With all its reports, a registered configuration is a candidate with a finite score. -/
theorem trialCandidate_of_report (hs : Sound lib d) (hloads : ∀ ranker, lib.loads ranker = true)
    {name : String} (hreport : (d.trialReports name).isSome = true) : ∃ trial,
      trialCandidate lib d name = .ok trial ∧ isfinite trial.2 = true
        ∧ (d.trialModels trial.1).isSome = true := by
  obtain ⟨report, hreport⟩ := Option.isSome_iff_exists.mp hreport
  obtain ⟨artifact, hartifact, htrained⟩ := hs.trial name report hreport
  obtain ⟨_, _, _, training, _, _, _, _, hfinite, hscore⟩ := htrained.fitted
  obtain ⟨q, hq⟩ := training.finite_ndcg hfinite
  refine ⟨(report.name, report.validationNdcgAt10), ?_, ?_, ?_⟩
  · unfold trialCandidate
    rw [hreport, hartifact]
    dsimp only
    rw [if_neg (by rw [hloads]; decide), if_neg (not_not_intro htrained.model)]
  · show isfinite report.validationNdcgAt10 = true
    rw [hscore, hq]
    rfl
  · show (d.trialModels report.name).isSome = true
    rw [htrained.report_name, hartifact]
    rfl

theorem exists_mapM {α β ε : Type} {f : α → Except ε β} {P : β → Prop} {l : List α}
    (h : ∀ a ∈ l, ∃ b, f a = .ok b ∧ P b) : ∃ bs, l.mapM f = .ok bs ∧ ∀ b ∈ bs, P b := by
  induction l with
  | nil => exact ⟨[], rfl, fun _ h => absurd h List.not_mem_nil⟩
  | cons a l ih =>
    obtain ⟨b, hb, hPb⟩ := h a List.mem_cons_self
    obtain ⟨bs, hbs, hPbs⟩ := ih fun a ha => h a (List.mem_cons_of_mem _ ha)
    refine ⟨b :: bs, ?_, ?_⟩
    · rw [List.mapM_cons, hb, hbs]
      rfl
    · rintro c (_ | ⟨_, hc⟩)
      · exact hPb
      · exact hPbs c hc

theorem selectWinner_of_finite {first : String × Float64} {rest : List (String × Float64)}
    (h : ∀ c ∈ first :: rest, isfinite c.2 = true) :
    selectWinner (first :: rest) = .ok (best first rest) := by
  unfold selectWinner
  dsimp only
  rw [if_neg]
  intro hany
  obtain ⟨c, hc, hnot⟩ := List.any_eq_true.mp hany
  rw [h c hc] at hnot
  cases hnot

/-- With all trials, a winner is frozen. -/
theorem frozen (hs : Sound lib d) (hselection : d.selection = none) (hmodel : d.model = none)
    (hworks : Works lib d parent) {vectors : Vectors F}
    (hvectors : trainingVectors lib d = .ok vectors)
    (hreports : ∀ name ∈ d.protocol.configs.map Prod.fst, (d.trialReports name).isSome = true) :
    (complete lib d (.select parent)).selection.isSome = true := by
  obtain ⟨q, hscore⟩ := hworks.scores vectors
  obtain ⟨trials, htrials, hgood⟩ := exists_mapM
    (f := fun c : String × Config => trialCandidate lib d c.1) (l := d.protocol.configs)
    fun c hc => trialCandidate_of_report hs hworks.loads (hreports c.1 (List.mem_map_of_mem hc))
  have hfinite : ∀ c ∈ ("parent_r2", Float64.finite q) :: trials, isfinite c.2 = true := by
    rintro c (_ | ⟨_, hc⟩)
    · rfl
    · exact (hgood c hc).1
  have hwinner := selectWinner_of_finite hfinite
  generalize best ("parent_r2", Float64.finite q) trials = winner at hwinner
  -- the model of whichever candidate has won is there
  have hsome : ∃ artifact, winningModel d parent.ranker winner.1 = some artifact := by
    unfold winningModel
    split
    · exact ⟨_, rfl⟩
    · rename_i hparent
      obtain ⟨before, after, hcandidates, -⟩ := selectWinner_eq_ok hwinner
      have hmem : winner ∈ ("parent_r2", Float64.finite q) :: trials := by
        rw [hcandidates]
        exact List.mem_append_right _ List.mem_cons_self
      rcases List.mem_cons.mp hmem with rfl | hmem
      · exact absurd rfl hparent
      · exact Option.isSome_iff_exists.mp (hgood winner hmem).2
  obtain ⟨artifact, hartifact⟩ := hsome
  rw [complete_eq]
  dsimp only [stage]
  rw [hworks.checked, Effects.compute_ok, hvectors, Effects.compute_ok]
  unfold freezeWinner
  rw [hselection, hscore, Effects.compute_ok, htrials, Effects.compute_ok]
  dsimp only
  rw [hwinner, Effects.compute_ok, hartifact, hmodel]
  dsimp only
  rw [Option.isSome_none, if_neg Bool.false_ne_true, Option.isSome_none, if_neg Bool.false_ne_true,
    if_neg (by rw [hworks.loads]; decide)]
  rfl

/-- What a search needs to work, it needs wherever it is. -/
theorem Works.extends (hworks : Works lib d parent) (h : Extends d e) : Works lib e parent where
  checked := (checkedInputs_extends h parent).trans hworks.checked
  fits c hc vectors := by
    have hc : c ∈ d.protocol.configs := by
      rw [h.protocol] at hc
      exact hc
    rw [fitArguments_extends h, h.dataset]
    exact hworks.fits c hc vectors
  scores vectors := by
    rw [h.dataset]
    exact hworks.scores vectors
  loads := hworks.loads

theorem encodeData_extends (h : Extends d e) (hd : d.embeddings = none) (he : e.embeddings = none)
    (encoding : Encoding F) : encodeData lib e encoding = encodeData lib d encoding := by
  unfold encodeData
  rw [h.dataset, hd, he]

theorem sound_complete (hs : Sound lib d) (s : Stage F R) :
    Sound lib (complete lib d s) ∧ Extends d (complete lib d s) :=
  sound_runStages hs [(s, (stage lib d s).writes.length)]

/-- One more call of each stage comes to a selection. -/
theorem selected_of_not_brokenOff (hs : Sound lib d) (hbroken : ¬ BrokenOff d)
    (hselection : d.selection = none) (hworks : Works lib d parent)
    (hencodes : d.embeddings = none → (encodeData lib d encoding).outcome = .ok ()) :
    (complete lib (complete lib (complete lib d (.encode parent encoding)) (.train parent none))
      (.select parent)).selection.isSome = true := by
  have hmodel : d.model = none := by
    rw [← Option.not_isSome_iff_eq_none]
    exact fun hmodel => hbroken (.select hmodel hselection)
  -- the vectors, with which the search is as far as it was
  obtain ⟨vectors, hvectors⟩ := encoded hs hbroken hworks.checked hencodes
  obtain ⟨hs₁, hx₁⟩ := sound_complete hs (.encode parent encoding)
  obtain ⟨hmodels₁, hreports₁, hmodel₁, hselection₁, hconfigs₁⟩ := foldl_ofVectors (d := d)
    (@ofVectors_stage F R lib d parent encoding)
  rw [← complete_eq] at hmodels₁ hreports₁ hmodel₁ hselection₁ hconfigs₁
  have hbroken₁ : ¬ BrokenOff (complete lib d (.encode parent encoding)) := by
    rintro (⟨-, hsha⟩ | ⟨name, hname, hsome, hreport⟩ | ⟨hsome, -⟩)
    · exact trainingVectors_unregistered hsha vectors hvectors
    · refine hbroken (.train name (hconfigs₁ ▸ hname) (hmodels₁ ▸ hsome) ?_)
      rw [← hreports₁]
      exact hreport
    · rw [hmodel₁, hmodel] at hsome
      cases hsome
  have hworks₁ := hworks.extends hx₁
  generalize complete lib d (.encode parent encoding) = d₁ at *
  -- the trials
  have hreports := trained hs₁ hbroken₁ (hselection₁.trans hselection) hworks₁ hvectors
  obtain ⟨hs₂, hx₂⟩ := sound_complete hs₁ (.train parent none)
  obtain ⟨-, hprotocol₂, hmodel₂, hselection₂, -⟩ := foldl_ofTrials (d := d₁)
    (@ofTrials_stage F R lib d₁ parent none)
  rw [← complete_eq] at hprotocol₂ hmodel₂ hselection₂
  have hworks₂ := hworks₁.extends hx₂
  have hvectors₂ := trainingVectors_extends hx₂ hvectors
  generalize complete lib d₁ (.train parent none) = d₂ at *
  -- the winner
  refine frozen hs₂ ?_ ?_ hworks₂ hvectors₂ ?_
  · rw [hselection₂, hselection₁, hselection]
  · rw [hmodel₂, hmodel₁, hmodel]
  · rw [hprotocol₂]
    exact hreports

/-- **Where a search can be resumed.**  When all that the stages call succeeds, a search whose stages
    were broken off anywhere can still come to a selection exactly when none of them was broken off
    between two files that belong together. -/
theorem search_completes_iff (hprepared : Prepared lib d) (hworks : Works lib d parent)
    (hencodes : (encodeData lib d encoding).outcome = .ok ()) (before : List (Stage F R × Nat)) :
    (∃ after, (runStages lib d (before ++ after)).selection.isSome = true)
      ↔ ¬ BrokenOff (runStages lib d before) := by
  have hrun : ∀ after, runStages lib d (before ++ after)
      = runStages lib (runStages lib d before) after := fun after => List.foldl_append
  obtain ⟨hs, hx⟩ := sound_runStages hprepared.sound before
  simp only [hrun]
  generalize runStages lib d before = e at hs hx
  constructor
  · rintro ⟨after, hselected⟩ hbroken
    have hlast := brokenOff_runStages hbroken hs after
    rw [hlast.selection (sound_runStages hs after).1] at hselected
    cases hselected
  · intro hbroken
    cases hselection : e.selection with
    | some s =>
      refine ⟨[], ?_⟩
      show e.selection.isSome = true
      rw [hselection]
      rfl
    | none =>
      refine ⟨[(.encode parent encoding, _), (.train parent none, _), (.select parent, _)],
        selected_of_not_brokenOff hs hbroken hselection (hworks.extends hx) fun hnone => ?_⟩
      rw [encodeData_extends hx hprepared.embeddings hnone]
      exact hencodes

end Resumed

/-- The search with one configuration can be resumed after its training was broken off before a write,
    and not after a model was written without its report. -/
theorem search_completes_iff_oneSearch :
    (∃ after, (runStages countingLibrary oneSearch ([(.encode oneParent oneEncoding, 2),
        (.train oneParent none, 0)] ++ after)).selection.isSome = true)
      ∧ ¬ ∃ after, (runStages countingLibrary oneSearch ([(.encode oneParent oneEncoding, 2),
        (.train oneParent none, 1)] ++ after)).selection.isSome = true := by
  have hworks : Works countingLibrary oneSearch oneParent :=
    ⟨rfl, fun c hc vectors => ⟨_, rfl, rfl⟩, fun _ => ⟨_, rfl⟩, fun _ => rfl⟩
  have hencodes : (encodeData countingLibrary oneSearch oneEncoding).outcome = .ok () := rfl
  refine ⟨(search_completes_iff prepared_oneSearch hworks hencodes _).mpr ?_,
    fun h => (search_completes_iff prepared_oneSearch hworks hencodes _).mp h ?_⟩
  · rintro (⟨-, hsha⟩ | ⟨name, hname, hmodel, hreport⟩ | ⟨hmodel, -⟩)
    · cases hsha
    · cases hmodel
    · cases hmodel
  · exact .train "attention20" (by decide) rfl rfl

end Oecophylla.Mind.Continuation
