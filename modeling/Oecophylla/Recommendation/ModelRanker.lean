import Mathlib.Data.Rat.Defs
import Mathlib.Algebra.Order.Ring.Rat
import Mathlib.Data.List.Forall2

namespace Oecophylla.Recommendation.ModelRanker

/-!
# The model ranker — `model_ranker.py`, `RankerRuntime.score`

A predictor that is not trusted scores the candidates.  Whatever is wrong with its answer, the
heuristic's scores are kept; so they are when it raises an `Exception`.  A `BaseException` that is none
(`KeyboardInterrupt`, `SystemExit`) is not caught: `score` raises it.

* `RecommendationItem`, `RankingDecision`, `RankerRuntime` — the data;
* `checkedScores` — the call of `predict_scores` and the checks on what it returns;
* `score` — `RankerRuntime.score`;
* `Heuristic`, `Model` — the two kinds of answer;
* `ModelScores`, `Interrupted`, `score_cases` — when the model scores, and when the call raises;
* `score_spec` — every answer is of one of the two kinds, and has the candidates it was given.

A finite double is a rational.  The counters of Prometheus and the log are left out, and so are the
fields of a snapshot that nobody reads here: they are of a type `X`.
-/

/-- What stands in the place of a score; `other` is what `math.isfinite` raises for. -/
inductive Score where
  | real (q : ℚ)
  | infinite (negative : Bool)
  | nan
  | other
  deriving DecidableEq

/-- `math.isfinite(score) and 0.0 <= score <= 1.0`, without an exception. -/
def Score.IsProbability : Score → Prop
  | .real q => 0 ≤ q ∧ q ≤ 1
  | _ => False

instance : DecidablePred Score.IsProbability := fun x =>
  match x with
  | .real q => inferInstanceAs (Decidable (0 ≤ q ∧ q ≤ 1))
  | .infinite _ => isFalse id
  | .nan => isFalse id
  | .other => isFalse id

theorem Score.IsProbability.exists_real {score : Score} (h : score.IsProbability) :
    ∃ q, score = .real q := by
  cases score with
  | real q => exact ⟨q, rfl⟩
  | infinite negative => exact h.elim
  | nan => exact h.elim
  | other => exact h.elim

/-- `RankFeatureSnapshot`; `X` are the fields that are only passed on. -/
structure RankFeatureSnapshot (X : Type) where
  topicRelevance : Option Score
  freshness : Option Score
  safetyScore : Option Score
  candidateSource : String
  isFollowedAuthor : Option Bool
  authorAffinity : Option Score
  heuristicScore : Option Score
  mlScore : Option Score
  other : X
  deriving DecidableEq

/-- `RecommendationItem`. -/
structure RecommendationItem (X : Type) where
  postId : Nat
  score : Score
  source : String
  reason : String
  features : RankFeatureSnapshot X
  deriving DecidableEq

/-- `RankingDecision`. -/
structure RankingDecision (X : Type) where
  items : List (RecommendationItem X)
  modelVersion : String
  fallbackUsed : Bool
  deriving DecidableEq

/-- `RankerMode`. -/
inductive RankerMode where
  | heuristic
  | ml
  | shadow
  deriving DecidableEq, Repr

/-- The attributes of a `Predictor`. -/
structure Predictor where
  modelVersion : String
  requiresContext : Bool
  deriving DecidableEq, Repr

/-- `RankerRuntime`, without the slot. -/
structure RankerRuntime where
  mode : RankerMode
  predictor : Option Predictor
  deriving DecidableEq, Repr

/-- A value of a record that `score` makes. -/
inductive FeatureValue where
  | number (value : Option Score)
  | text (value : String)
  | flag (value : Option Bool)
  deriving DecidableEq

/-- A record for the predictor: a context of `load_nrms_records`, or the columns of a snapshot. -/
inductive Record (C : Type) where
  | context (record : C)
  | snapshot (columns : List (String × FeatureValue))

/-- What is raised: an `Exception`, or a `BaseException` that is none. -/
inductive Raised where
  | exception
  | baseException
  deriving DecidableEq, Repr

/-- `predict_scores`: what it returns or raises for the records. -/
abbrev PredictScores (C : Type) := List (Record C) → Except Raised (List Score)

/-- `HEURISTIC_MODEL_VERSION`. -/
def heuristicModelVersion : String := "heuristic-v1"

/-- The `FEATURE_COLUMNS` of an item. -/
def featureColumns {C X : Type} (feedSource : String) (item : RecommendationItem X) : Record C :=
  .snapshot
    [("topic_relevance", .number item.features.topicRelevance),
      ("freshness", .number item.features.freshness),
      ("safety_score", .number item.features.safetyScore),
      ("author_affinity", .number item.features.authorAffinity),
      ("heuristic_score", .number item.features.heuristicScore),
      ("feed_source", .text feedSource),
      ("candidate_source", .text item.features.candidateSource),
      ("is_followed_author", .flag item.features.isFollowedAuthor)]

/-- The records of a call. -/
def recordsFor {C X : Type} (feedSource : String) (items : List (RecommendationItem X))
    (records : Option (List C)) : List (Record C) :=
  match records with
  | some records => records.map Record.context
  | none => items.map (featureColumns feedSource)

/-- The `try` block: the scores, unless something is raised. -/
def checkedScores {C : Type} (predictScores : PredictScores C) (records : List (Record C))
    (count : Nat) : Except Raised (List Score) := do
  if records.length ≠ count then throw .exception
  let scores ← predictScores records
  if scores.length ≠ count ∨ ∃ score ∈ scores, ¬ score.IsProbability then throw .exception
  pure scores

/-- The copy of an item with its score. -/
def withScore {X : Type} (mode : RankerMode) (modelVersion : String) (item : RecommendationItem X)
    (score : Score) : RecommendationItem X :=
  { item with
    score := if mode = .ml then score else item.score
    reason := if mode = .ml then "ml:" ++ modelVersion else item.reason
    features := { item.features with mlScore := some score } }

namespace RankerRuntime

/-- `fallback(items, reason)`. -/
def fallback {X : Type} (items : List (RecommendationItem X)) : RankingDecision X :=
  ⟨items, heuristicModelVersion, true⟩

/-- The decision with the scores of the predictor. -/
def updated {X : Type} (mode : RankerMode) (predictor : Predictor) (items : List (RecommendationItem X))
    (scores : List Score) : RankingDecision X where
  items := List.zipWith (withScore mode predictor.modelVersion) items scores
  modelVersion := if mode = .ml then predictor.modelVersion
    else heuristicModelVersion ++ "+shadow:" ++ predictor.modelVersion
  fallbackUsed := false

/-- `score(items, feed_source=…, records=…)`. -/
def score {C X : Type} (runtime : RankerRuntime) (predictScores : PredictScores C)
    (items : List (RecommendationItem X)) (feedSource : String) (records : Option (List C)) :
    Except Raised (RankingDecision X) :=
  if runtime.mode = .heuristic then .ok ⟨items, heuristicModelVersion, false⟩
  else
    match runtime.predictor with
    | none => .ok ⟨items, heuristicModelVersion, true⟩
    | some predictor =>
      if predictor.requiresContext ∧ records = none then .ok (fallback items)
      else
        match checkedScores predictScores (recordsFor feedSource items records) items.length with
        | .error .exception => .ok ⟨items, heuristicModelVersion, true⟩
        | .error .baseException => .error .baseException  -- not caught by `except Exception`
        | .ok scores => .ok (updated runtime.mode predictor items scores)

end RankerRuntime

/-! ### The two kinds of answer -/

section Answers

variable {C X : Type} {runtime : RankerRuntime} {items : List (RecommendationItem X)}
  {predictScores : PredictScores C} {records : List (Record C)} {scores : List Score}

/-- A candidate: what does not depend on who scores it. -/
def RecommendationItem.candidate (item : RecommendationItem X) :
    Nat × String × RankFeatureSnapshot X :=
  (item.postId, item.source, { item.features with mlScore := none })

/-- The answer of the heuristic: the items as they are. -/
def Heuristic (items : List (RecommendationItem X)) (decision : RankingDecision X) : Prop :=
  decision.items = items ∧ decision.modelVersion = heuristicModelVersion

/-- The answer of the model: every item has got its score from the list the predictor returned, and
    this list is one of probabilities.  Outside of `ml` the heuristic's scores stay beside them. -/
structure Model (runtime : RankerRuntime) (scores : List Score)
    (items : List (RecommendationItem X)) (decision : RankingDecision X) : Prop where
  probabilities : ∀ score ∈ scores, score.IsProbability
  mlScores : decision.items.map (fun item => item.features.mlScore) = scores.map some
  scores : decision.items.map RecommendationItem.score
    = if runtime.mode = .ml then scores else items.map RecommendationItem.score

theorem checkedScores_eq_ok_iff {count : Nat} :
    checkedScores predictScores records count = .ok scores ↔ records.length = count
      ∧ predictScores records = .ok scores ∧ scores.length = count
      ∧ ∀ score ∈ scores, score.IsProbability := by
  unfold checkedScores
  by_cases hcount : records.length = count
  · rw [if_neg (not_not_intro hcount)]
    cases hpredict : predictScores records with
    | error e => simp [bind, Except.bind]
    | ok predicted =>
      dsimp only [bind, Except.bind, pure, Except.pure]
      by_cases hbad : predicted.length ≠ count ∨ ∃ score ∈ predicted, ¬ score.IsProbability
      · rw [if_pos hbad]
        refine iff_of_false nofun ?_
        rintro ⟨-, heq, hlength, hprobabilities⟩
        obtain rfl := Except.ok.inj heq
        rcases hbad with hbad | ⟨score, hscore, hbad⟩
        · exact hbad hlength
        · exact hbad (hprobabilities score hscore)
      · rw [if_neg hbad]
        simp only [not_or, not_not, not_exists, not_and] at hbad
        constructor
        · intro heq
          obtain rfl := Except.ok.inj heq
          exact ⟨hcount, rfl, hbad⟩
        · rintro ⟨-, heq, -⟩
          exact heq
  · rw [if_pos hcount]
    exact iff_of_false nofun fun h => hcount h.1

theorem checkedScores_eq_baseException_iff {count : Nat} :
    checkedScores predictScores records count = .error .baseException
      ↔ records.length = count ∧ predictScores records = .error .baseException := by
  unfold checkedScores
  by_cases hcount : records.length = count
  · rw [if_neg (not_not_intro hcount)]
    cases hpredict : predictScores records with
    | error e => simp [hcount, bind, Except.bind]
    | ok predicted =>
      dsimp only [bind, Except.bind, pure, Except.pure]
      refine iff_of_false ?_ nofun
      split <;> nofun
  · rw [if_pos hcount]
    exact iff_of_false nofun fun h => hcount h.1

/-- The predictor is asked, and raises what is not caught. -/
def Interrupted (runtime : RankerRuntime) (predictScores : PredictScores C)
    (items : List (RecommendationItem X)) (feedSource : String) (records : Option (List C)) : Prop :=
  runtime.mode ≠ .heuristic ∧ ∃ predictor ∈ runtime.predictor,
    (predictor.requiresContext = true → records ≠ none)
      ∧ (recordsFor feedSource items records).length = items.length
      ∧ predictScores (recordsFor feedSource items records) = .error .baseException

/-- The predictor is asked, and returns a probability for every item. -/
def ModelScores (runtime : RankerRuntime) (predictScores : PredictScores C)
    (items : List (RecommendationItem X)) (feedSource : String) (records : Option (List C))
    (predictor : Predictor) (scores : List Score) : Prop :=
  runtime.mode ≠ .heuristic ∧ runtime.predictor = some predictor
    ∧ (predictor.requiresContext = true → records ≠ none)
    ∧ (recordsFor feedSource items records).length = items.length
    ∧ predictScores (recordsFor feedSource items records) = .ok scores
    ∧ scores.length = items.length ∧ ∀ score ∈ scores, score.IsProbability

/-- What the copies keep of the items, and what they take from the scores. -/
theorem map_zipWith_of_left {α β γ δ : Type} {f : α → β → γ} {g : γ → δ} {h : α → δ}
    (heq : ∀ a b, g (f a b) = h a) {l : List α} {l' : List β} (hlength : l'.length = l.length) :
    (List.zipWith f l l').map g = l.map h := by
  induction l generalizing l' with
  | nil => rfl
  | cons a l ih =>
    cases l' with
    | nil => cases hlength
    | cons b l' =>
      rw [List.zipWith_cons_cons, List.map_cons, List.map_cons, heq,
        ih (Nat.succ.inj hlength)]

theorem map_zipWith_of_right {α β γ δ : Type} {f : α → β → γ} {g : γ → δ} {h : β → δ}
    (heq : ∀ a b, g (f a b) = h b) {l : List α} {l' : List β} (hlength : l'.length = l.length) :
    (List.zipWith f l l').map g = l'.map h := by
  rw [List.zipWith_comm]
  exact map_zipWith_of_left (fun b a => heq a b) hlength.symm

/-- **What a call does.**  The model's scores, the exception that is not caught, or the items as they
    were. -/
theorem score_cases (runtime : RankerRuntime) (predictScores : PredictScores C)
    (items : List (RecommendationItem X)) (feedSource : String) (records : Option (List C)) :
    (∃ predictor scores, ModelScores runtime predictScores items feedSource records predictor scores
        ∧ runtime.score predictScores items feedSource records
          = .ok (RankerRuntime.updated runtime.mode predictor items scores))
      ∨ Interrupted runtime predictScores items feedSource records
        ∧ runtime.score predictScores items feedSource records = .error .baseException
      ∨ (∀ predictor scores,
          ¬ ModelScores runtime predictScores items feedSource records predictor scores)
        ∧ ¬ Interrupted runtime predictScores items feedSource records
        ∧ ∃ decision, runtime.score predictScores items feedSource records = .ok decision
          ∧ Heuristic items decision := by
  unfold RankerRuntime.score
  split
  · next hmode =>
    exact .inr (.inr ⟨fun _ _ h => h.1 hmode, fun h => h.1 hmode, _, rfl, rfl, rfl⟩)
  · next hmode =>
    split
    · next hnone =>
      refine .inr (.inr ⟨fun predictor scores h => ?_, fun h => ?_, _, rfl, rfl, rfl⟩)
      · exact Option.some_ne_none predictor (h.2.1.symm.trans hnone)
      · obtain ⟨-, predictor, hpredictor, -⟩ := h
        exact Option.some_ne_none predictor (hpredictor.symm.trans hnone)
    · next predictor hpredictor =>
      split
      · next hmissing =>
        refine .inr (.inr ⟨fun other scores h => ?_, fun h => ?_, _, rfl, rfl, rfl⟩)
        · obtain rfl := Option.some.inj (hpredictor.symm.trans h.2.1)
          exact h.2.2.1 hmissing.1 hmissing.2
        · obtain ⟨-, other, hother, hcontext, -⟩ := h
          obtain rfl := Option.some.inj (hpredictor.symm.trans hother)
          exact hcontext hmissing.1 hmissing.2
      · next hcontext =>
        have hneeds : predictor.requiresContext = true → records ≠ none :=
          fun hrequires hnone => hcontext ⟨hrequires, hnone⟩
        split
        · next hfails =>
          refine .inr (.inr ⟨fun other scores h => ?_, fun h => ?_, _, rfl, rfl, rfl⟩)
          · rw [checkedScores_eq_ok_iff.mpr h.2.2.2] at hfails
            cases hfails
          · obtain ⟨-, other, -, -, hraises⟩ := h
            rw [checkedScores_eq_baseException_iff.mpr hraises] at hfails
            cases hfails
        · next hraises =>
          have hraises := checkedScores_eq_baseException_iff.mp hraises
          exact .inr (.inl ⟨⟨hmode, predictor, hpredictor, hneeds, hraises⟩, rfl⟩)
        · next scores hscores =>
          exact .inl ⟨predictor, scores,
            ⟨hmode, hpredictor, hneeds, checkedScores_eq_ok_iff.mp hscores⟩, rfl⟩

/-- Without a model the answer is the heuristic's. -/
theorem heuristic_score (h : runtime.mode = .heuristic ∨ runtime.predictor = none)
    (predictScores : PredictScores C) (items : List (RecommendationItem X)) (feedSource : String)
    (records : Option (List C)) : ∃ decision,
      runtime.score predictScores items feedSource records = .ok decision
        ∧ Heuristic items decision := by
  unfold RankerRuntime.score
  split
  · exact ⟨_, rfl, rfl, rfl⟩
  · next hmode =>
    rw [h.resolve_left hmode]
    exact ⟨_, rfl, rfl, rfl⟩

theorem ModelScores.unique {feedSource : String} {records : Option (List C)}
    {predictor predictor' : Predictor} {scores scores' : List Score}
    (h : ModelScores runtime predictScores items feedSource records predictor scores)
    (h' : ModelScores runtime predictScores items feedSource records predictor' scores') :
    predictor = predictor' ∧ scores = scores' :=
  ⟨Option.some.inj (h.2.1.symm.trans h'.2.1), Except.ok.inj (h.2.2.2.2.1.symm.trans h'.2.2.2.2.1)⟩

theorem ModelScores.not_interrupted {feedSource : String} {records : Option (List C)}
    {predictor : Predictor} {scores : List Score}
    (h : ModelScores runtime predictScores items feedSource records predictor scores) :
    ¬ Interrupted runtime predictScores items feedSource records := by
  rintro ⟨-, _, -, -, -, hraises⟩
  rw [h.2.2.2.2.1] at hraises
  cases hraises

/-- It raises nothing but what the predictor raises, and only what is no `Exception`. -/
theorem score_eq_error_iff {feedSource : String} {records : Option (List C)} {raised : Raised} :
    runtime.score predictScores items feedSource records = .error raised
      ↔ raised = .baseException ∧ Interrupted runtime predictScores items feedSource records := by
  rcases score_cases runtime predictScores items feedSource records with
    ⟨predictor, scores, hmodel, heq⟩ | ⟨hinterrupted, heq⟩ | ⟨-, hcalm, decision, heq, -⟩ <;> rw [heq]
  · exact iff_of_false nofun fun h => hmodel.not_interrupted h.2
  · rw [Except.error.injEq, eq_comm]
    exact (and_iff_left hinterrupted).symm
  · exact iff_of_false nofun fun h => hcalm h.2

/-- The copies with the scores of the model. -/
theorem updated_spec {predictor : Predictor} (hlength : scores.length = items.length)
    (hprobabilities : ∀ score ∈ scores, score.IsProbability) :
    (RankerRuntime.updated runtime.mode predictor items scores).items.map
        RecommendationItem.candidate = items.map RecommendationItem.candidate
      ∧ Model runtime scores items (RankerRuntime.updated runtime.mode predictor items scores) := by
  constructor
  · refine map_zipWith_of_left ?_ hlength
    intro item score
    rfl
  refine ⟨hprobabilities, ?_, ?_⟩
  · refine map_zipWith_of_right ?_ hlength
    intro item score
    rfl
  · show (List.zipWith (withScore runtime.mode _) items scores).map RecommendationItem.score = _
    by_cases hml : runtime.mode = .ml
    · rw [if_pos hml]
      refine (map_zipWith_of_right ?_ hlength).trans (List.map_id scores)
      intro item score
      exact if_pos hml
    · rw [if_neg hml]
      refine map_zipWith_of_left ?_ hlength
      intro item score
      exact if_neg hml

/-- **One call.**  Whatever the predictor does, an answer has the candidates in their order, and is
    the heuristic's or the model's, from what the predictor returned for these records. -/
theorem score_spec {feedSource : String} {records : Option (List C)} {decision : RankingDecision X}
    (h : runtime.score predictScores items feedSource records = .ok decision) :
    decision.items.map RecommendationItem.candidate = items.map RecommendationItem.candidate
      ∧ (Heuristic items decision ∨ ∃ scores, Model runtime scores items decision
        ∧ predictScores (recordsFor feedSource items records) = .ok scores) := by
  rcases score_cases runtime predictScores items feedSource records with
    ⟨predictor, scores, hmodel, heq⟩ | ⟨-, heq⟩ | ⟨-, -, plain, heq, hheuristic⟩
  · obtain rfl := Except.ok.inj (heq.symm.trans h)
    obtain ⟨-, -, -, -, hpredict, hlength, hprobabilities⟩ := hmodel
    obtain ⟨hcandidates, hspec⟩ := updated_spec hlength hprobabilities
    exact ⟨hcandidates, .inr ⟨scores, hspec, hpredict⟩⟩
  · rw [heq] at h
    cases h
  · obtain rfl := Except.ok.inj (heq.symm.trans h)
    exact ⟨congrArg (List.map RecommendationItem.candidate) hheuristic.1, .inl hheuristic⟩

end Answers

end Oecophylla.Recommendation.ModelRanker
