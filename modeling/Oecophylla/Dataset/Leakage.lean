import Oecophylla.Dataset.Ranking

namespace Oecophylla.Dataset

open Lib (stableSort)
open Oecophylla.Python (Timestamp)

/-!
# No leakage from the future into the ranking dataset

Two inputs of the builder are compared that differ only in what came too late: events that were
ingested after the extraction, and feature rows after the reference time of every impression.

* `rankingRow_congr` — a row depends on the clicks and features before the reference time of its
  impression, and on its label;
* `rankingOutcome_congr` — what came too late changes no row;
* `history_of_row` — where an entry of the history of a row comes from;
* `leakageFree` — the rows are identical; clicks at or after the reference time of an impression
  change neither its history nor its article nor its topics; and every entry of a history was engaged
  before serving, with a feature that was there.
-/

variable {F : Type}

/-! ### What came too late -/

/-- The feature row is later than the reference time of the impression. -/
def LateFor (i : Impression) (f : ArticleFeatureRecord F) : Prop :=
  match referenceAt i with
  | .ok reference => reference < f.sourceUpdatedAt ∨ reference < f.computedAt
  | .error _ => True

instance (i : Impression) (f : ArticleFeatureRecord F) : Decidable (LateFor i f) := by
  unfold LateFor
  split <;> infer_instance

/-- The feature row is later than the reference time of every impression. -/
def Late (impressions : List Impression) (f : ArticleFeatureRecord F) : Prop :=
  ∀ i ∈ impressions, LateFor i f

instance (impressions : List Impression) (f : ArticleFeatureRecord F) :
    Decidable (Late impressions f) :=
  inferInstanceAs (Decidable (∀ _ ∈ _, _))

/-- The feature rows differ only in late ones. -/
def SameFeatureRows (impressions : List Impression) (features features' : List (ArticleFeatureRecord F)) :
    Prop :=
  (features.filter fun f => ¬ Late impressions f) = features'.filter fun f => ¬ Late impressions f

/-- The events differ only in those ingested after the extraction. -/
def SameEvents (config : DatasetConfig) (events events' : List BehaviorEvent) : Prop :=
  (events.filter fun e => IngestedBy config.extractionTime e)
    = events'.filter fun e => IngestedBy config.extractionTime e

/-- The event is a click at or after the reference time of the impression. -/
def LateClick (i : Impression) (e : BehaviorEvent) : Prop :=
  e.eventType = "click" ∧
    match referenceAt i with
    | .ok reference => reference ≤ e.occurredAt
    | .error _ => False

instance (i : Impression) (e : BehaviorEvent) : Decidable (LateClick i e) := by
  unfold LateClick
  split <;> infer_instance

/-- The events also differ in clicks at or after the reference time of the impression. -/
def SameEventsBefore (config : DatasetConfig) (i : Impression) (events events' : List BehaviorEvent) :
    Prop :=
  (events.filter fun e => IngestedBy config.extractionTime e ∧ ¬ LateClick i e)
    = events'.filter fun e => IngestedBy config.extractionTime e ∧ ¬ LateClick i e

/-- The row is the one of the impression: its request has no other at its position. -/
def RowOf (i : Impression) (row : RankingDatasetRow F) : Prop :=
  row.auditRequestIdentity = canonicalRequestIdentity i ∧ row.position = i.position

/-! ### What the rows look at -/

variable {rt : Runtime F} {config : DatasetConfig} {impressions : List Impression}
  {events events' : List BehaviorEvent} {features features' : List (ArticleFeatureRecord F)}
  {i : Impression} {reference : Timestamp}

/-- A part of a list that is kept is the same in two lists. -/
theorem filter_eq_of_imp {α : Type} {l l' : List α} {p q : α → Prop} [DecidablePred p]
    [DecidablePred q] (h : (l.filter fun a => p a) = l'.filter fun a => p a) (himp : ∀ a, q a → p a) :
    (l.filter fun a => q a) = l'.filter fun a => q a := by
  have hpart : ∀ l : List α, (l.filter fun a => q a) = (l.filter fun a => p a).filter fun a => q a := by
    intro l
    rw [List.filter_filter]
    apply List.filter_congr
    intro a _
    by_cases hq : q a
    · simp [hq, himp a hq]
    · simp [hq]
  rw [hpart l, hpart l', h]

/-- Features that were there before the reference time of an impression are not late. -/
theorem SameFeatureRows.before (h : SameFeatureRows impressions features features')
    (hi : i ∈ impressions) (hreference : referenceAt i = .ok reference) {t : Timestamp}
    (ht : t ≤ reference) : SameFeatures t features features' := by
  apply filter_eq_of_imp h
  intro f havailable hlate
  have hfor := hlate i hi
  simp only [LateFor, hreference, Timestamp.lt_iff] at hfor
  simp only [AvailableAt, Timestamp.le_iff] at havailable ht
  omega

/-- What was ingested by a time was ingested by a later one. -/
theorem IngestedBy.mono {t u : Timestamp} {e : BehaviorEvent} (h : IngestedBy t e) (htu : t ≤ u) :
    IngestedBy u e := by
  intro ingested hingested
  exact Int.le_trans (h ingested hingested) htu

/-- Clicks before the reference time are not late. -/
theorem SameEventsBefore.clicks (h : SameEventsBefore config i events events')
    (hreference : referenceAt i = .ok reference) (hextraction : reference ≤ config.extractionTime)
    (userId : Nat) :
    (events.filter fun e => HistoryClick userId reference e)
      = events'.filter fun e => HistoryClick userId reference e := by
  apply filter_eq_of_imp h
  rintro e ⟨-, -, -, hbefore, hingested⟩
  refine ⟨hingested.mono hextraction, ?_⟩
  rintro ⟨-, hlate⟩
  simp only [hreference, Timestamp.le_iff] at hlate
  simp only [Timestamp.lt_iff] at hbefore
  omega

theorem SameEvents.before (h : SameEvents config events events') :
    SameEventsBefore config i events events' :=
  filter_eq_of_imp h fun _ hkept => hkept.1

theorem SameEvents.linked (h : SameEvents config events events') :
    linkedEvents config events i = linkedEvents config events' i := by
  have hlinked := filter_eq_of_imp (q := fun e =>
    e.impressionId = some i.id ∧ IngestedBy config.extractionTime e) h fun _ hkept => hkept.2
  unfold linkedEvents
  rw [hlinked]

/-! ### Rows -/

section Rows

variable [BEq F] {visibleAt visibleAt' : Timestamp} {label label' : RankingLabel}
  {row row' : RankingDatasetRow F}

theorem raiseIf_eq_ok {bad : Prop} [Decidable bad] {text : String} {u : Unit} :
    raiseIf bad text = .ok u ↔ ¬ bad := by
  unfold raiseIf
  split_ifs with h
  · simp [h]
  · simp [h]

/-- What a row is made of. -/
theorem rankingRow_eq_ok
    (h : rankingRow rt config events features i visibleAt label = .ok row) :
    ∃ reference article topics observed snapshot,
      referenceAt i = .ok reference ∧ reference ≤ i.servedAt
      ∧ candidateArticle rt config.salt features i reference = .ok article
      ∧ snapshotDeclaredTopics rt i.featureSnapshot = .ok topics
      ∧ optionalSnapshotDatetime i.featureSnapshot "preference_observed_at" = .ok observed
      ∧ buildHistorySnapshot i.userId reference events features config = .ok snapshot
      ∧ row = {
        sampleId := hashIdentity rt i.id config.salt
        requestGroup := hmacRequestIdentity rt i config.salt
        candidateGroup := hashIdentity rt i.postId config.salt
        split := .train
        servedAt := i.servedAt
        visibleAt := visibleAt
        position := i.position
        served := true
        visible := true
        clickLabel := label.clickLabel
        utilityLabel := label.utilityLabel
        utilityLabelName := label.utilityLabelName
        article := article
        history := rankingHistory rt config.salt snapshot.entries
        feedSource := i.feedSource
        modelVersion := i.modelVersion
        sourceFormat := "oecophylla-telemetry-v2"
        auditRequestIdentity := canonicalRequestIdentity i
        declaredTopics := topics
        declaredTopicsObservedAt := observed } := by
  unfold rankingRow at h
  simp only [Lib.except_bind_eq_ok, Lib.except_pure_eq_ok, raiseIf_eq_ok] at h
  obtain ⟨reference, hreference, -, hserved, article, harticle, topics, htopics, observed, hobserved,
    snapshot, hsnapshot, rfl⟩ := h
  have hle : reference ≤ i.servedAt := by
    simp only [Timestamp.lt_iff] at hserved
    rw [Timestamp.le_iff]
    omega
  exact ⟨reference, article, topics, observed, snapshot, hreference, hle, harticle, htopics, hobserved,
    hsnapshot, rfl⟩

omit [BEq F] in
/-- The article looks at the features before the reference time. -/
theorem candidateArticle_congr (h : SameFeatures reference features features') (salt : String) :
    candidateArticle rt salt features i reference = candidateArticle rt salt features' i reference := by
  unfold candidateArticle
  rw [selectHistoryFeature_congr h]

/-- Two rows of one impression have the same context: its history, its article and its topics. -/
structure SameContext (row row' : RankingDatasetRow F) : Prop where
  history : row.history = row'.history
  article : row.article = row'.article
  topics : row.declaredTopics = row'.declaredTopics
  observedAt : row.declaredTopicsObservedAt = row'.declaredTopicsObservedAt

/-- **A row and the future.**  The context of a row depends on the clicks and features before the
    reference time of its impression; the rest of it on the exposure and the label. -/
theorem rankingRow_congr (hnodup : (features.map ArticleFeatureRecord.id).Nodup)
    (hnodup' : (features'.map ArticleFeatureRecord.id).Nodup)
    (hreference : referenceAt i = .ok reference)
    (hfeatures : ∀ t ≤ reference, SameFeatures t features features')
    (hclicks : (events.filter fun e => HistoryClick i.userId reference e)
      = events'.filter fun e => HistoryClick i.userId reference e)
    (h : rankingRow rt config events features i visibleAt label = .ok row)
    (h' : rankingRow rt config events' features' i visibleAt' label' = .ok row') :
    SameContext row row' ∧ (visibleAt = visibleAt' → label = label' → row = row') := by
  obtain ⟨r, article, topics, observed, snapshot, hr, -, harticle, htopics, hobserved, hsnapshot, rfl⟩ :=
    rankingRow_eq_ok h
  obtain ⟨r', article', topics', observed', snapshot', hr', -, harticle', htopics', hobserved',
    hsnapshot', rfl⟩ := rankingRow_eq_ok h'
  obtain rfl : reference = r := Except.ok.inj (hreference.symm.trans hr)
  obtain rfl : reference = r' := Except.ok.inj (hreference.symm.trans hr')
  have hentries : snapshot.entries = snapshot'.entries :=
    buildHistorySnapshot_congr hnodup hnodup' hclicks
      (fun t ht => hfeatures t (Int.le_of_lt ht)) hsnapshot hsnapshot'
  rw [candidateArticle_congr (hfeatures reference (Int.le_refl _))] at harticle
  obtain rfl : article = article' := Except.ok.inj (harticle.symm.trans harticle')
  obtain rfl : topics = topics' := Except.ok.inj (htopics.symm.trans htopics')
  obtain rfl : observed = observed' := Except.ok.inj (hobserved.symm.trans hobserved')
  have hhistory : rankingHistory rt config.salt snapshot.entries
      = rankingHistory rt config.salt snapshot'.entries := congrArg _ hentries
  refine ⟨⟨hhistory, rfl, rfl, rfl⟩, ?_⟩
  rintro rfl rfl
  rw [hhistory]

/-! ### Rounds -/

/-- A round that makes a row. -/
theorem rankingOutcome_eq_row (h : rankingOutcome rt config events features i = .ok (.row row)) :
    ∃ visibleAt labelWindowEnd label,
      verifiedExposureAt i (linkedEvents config events i) = some visibleAt
      ∧ visibleAt.plus (config.labelWindowHours * hourMicros) = some labelWindowEnd
      ∧ labelWindowEnd ≤ config.extractionTime.micros
      ∧ rankingLabel config i (linkedEvents config events i) labelWindowEnd = .ok label
      ∧ rankingRow rt config events features i visibleAt label = .ok row := by
  unfold rankingOutcome at h
  dsimp only at h
  split at h
  · simp at h
  · next visibleAt hvisible =>
    split at h
    · simp at h
    · next labelWindowEnd hwindow =>
      split_ifs at h with himmature hsnapshot
      · simp at h
      · simp at h
      · simp only [Lib.except_bind_eq_ok, Lib.except_pure_eq_ok, Outcome.row.injEq] at h
        obtain ⟨label, hlabel, row', hrow, rfl⟩ := h
        exact ⟨visibleAt, labelWindowEnd, label, hvisible, hwindow, by omega, hlabel, hrow⟩

/-- The first proof of exposure is not before serving. -/
theorem servedAt_le_of_verifiedExposureAt {linked : List BehaviorEvent}
    (h : verifiedExposureAt i linked = some visibleAt) : i.servedAt ≤ visibleAt := by
  obtain ⟨e, he, rfl⟩ := List.mem_map.mp (Lib.firstLeast_mem h)
  exact (of_decide_eq_true (List.mem_filter.mp he).2).2

/-- A row is made only after its label window has closed: the extraction is after its reference
    time. -/
theorem reference_le_extraction
    (h : rankingOutcome rt config events features i = .ok (.row row))
    (hreference : referenceAt i = .ok reference) : reference ≤ config.extractionTime := by
  obtain ⟨visibleAt, labelWindowEnd, label, hvisible, hwindow, hmature, -, hrow⟩ :=
    rankingOutcome_eq_row h
  obtain ⟨r, -, -, -, -, hr, hserved, -⟩ := rankingRow_eq_ok hrow
  obtain rfl : reference = r := Except.ok.inj (hreference.symm.trans hr)
  have hexposed := servedAt_le_of_verifiedExposureAt hvisible
  have hend := Timestamp.plus_eq_some hwindow
  have hpositive : 0 < config.labelWindowHours * hourMicros :=
    Int.mul_pos config.window_positive (by decide)
  simp only [Timestamp.le_iff] at hserved hexposed ⊢
  omega

/-- **What came too late changes no round.** -/
theorem rankingOutcome_congr {outcome outcome' : Outcome F}
    (hnodup : (features.map ArticleFeatureRecord.id).Nodup)
    (hnodup' : (features'.map ArticleFeatureRecord.id).Nodup) (hi : i ∈ impressions)
    (hfeatures : SameFeatureRows impressions features features')
    (hevents : SameEvents config events events')
    (h : rankingOutcome rt config events features i = .ok outcome)
    (h' : rankingOutcome rt config events' features' i = .ok outcome') : outcome = outcome' := by
  -- the round branches on the linked events alone
  have hlinked : linkedEvents config events' i = linkedEvents config events i := hevents.linked.symm
  have hround := h
  unfold rankingOutcome at h h'
  rw [hlinked] at h'
  cases hvisible : verifiedExposureAt i (linkedEvents config events i) with
  | none =>
    simp only [hvisible, Except.ok.injEq] at h h'
    rw [← h, ← h']
  | some visibleAt =>
    cases hwindow : visibleAt.plus (config.labelWindowHours * hourMicros) with
    | none => simp [hvisible, hwindow] at h
    | some labelWindowEnd =>
      simp only [hvisible, hwindow] at h h'
      split_ifs at h h' with himmature hsnapshot
      · rw [← Except.ok.inj h, ← Except.ok.inj h']
      · rw [← Except.ok.inj h, ← Except.ok.inj h']
      · simp only [Lib.except_bind_eq_ok, Lib.except_pure_eq_ok] at h h'
        obtain ⟨label, hlabel, row, hrow, rfl⟩ := h
        obtain ⟨label', hlabel', row', hrow', rfl⟩ := h'
        obtain rfl : label = label' := Except.ok.inj (hlabel.symm.trans hlabel')
        obtain ⟨reference, -, -, -, -, hreference, -⟩ := rankingRow_eq_ok hrow
        have hextraction := reference_le_extraction hround hreference
        have heq := (rankingRow_congr hnodup hnodup' hreference
          (fun t ht => hfeatures.before hi hreference ht)
          (hevents.before.clicks hreference hextraction i.userId) hrow hrow').2 rfl rfl
        rw [heq]

/-! ### The builder -/

variable {result result' : RankingBuildResult F}

/-- What the builder returns. -/
theorem buildRankingSamplesV2_eq_ok (himpressions : (impressions.map Impression.id).Nodup)
    (hevents : (events.map BehaviorEvent.id).Nodup)
    (hfeatures : (features.map ArticleFeatureRecord.id).Nodup)
    (h : buildRankingSamplesV2 rt impressions events features config = .ok result) :
    ∃ seen outcomes, validateRequestEnvelopes (windowImpressions config impressions) = .ok seen
      ∧ (stableSort compareServed (windowImpressions config impressions)).mapM
        (rankingOutcome rt config events features) = .ok outcomes
      ∧ result = buildResult config impressions events outcomes := by
  unfold buildRankingSamplesV2 at h
  simp only [deduplicate_of_nodup himpressions, deduplicate_of_nodup hevents,
    deduplicate_of_nodup hfeatures, Lib.except_bind_eq_ok, Except.ok.injEq, exists_eq_left'] at h
  obtain ⟨-, -, seen, hseen, h⟩ := h
  split_ifs at h
  simp only [Lib.except_bind_eq_ok, Lib.except_pure_eq_ok] at h
  obtain ⟨outcomes, houtcomes, -, -, rfl⟩ := h
  exact ⟨seen, outcomes, hseen, houtcomes, rfl⟩

/-- A row of the result is the row of an impression of the window, up to its split. -/
theorem exists_of_mem_rows (himpressions : (impressions.map Impression.id).Nodup)
    (hevents : (events.map BehaviorEvent.id).Nodup)
    (hfeatures : (features.map ArticleFeatureRecord.id).Nodup)
    (h : buildRankingSamplesV2 rt impressions events features config = .ok result)
    (hrow : row ∈ result.rows) :
    ∃ i ∈ windowImpressions config impressions, ∃ source,
      rankingOutcome rt config events features i = .ok (.row source)
      ∧ row = { source with split := row.split } := by
  obtain ⟨seen, outcomes, -, houtcomes, rfl⟩ :=
    buildRankingSamplesV2_eq_ok himpressions hevents hfeatures h
  obtain ⟨source, hsource, heq⟩ := mem_splitRankingRows hrow
  obtain ⟨outcome, houtcome, htoRow⟩ := List.mem_filterMap.mp hsource
  obtain ⟨i, hi, hround⟩ := Lib.exists_of_mem_mapM houtcomes houtcome
  cases outcome with
  | row r =>
    obtain rfl : r = source := Option.some.inj htoRow
    exact ⟨i, Lib.mem_stableSort.mp hi, r, hround, heq⟩
  | servedWithoutVisible => nomatch htoRow
  | immature => nomatch htoRow
  | unsupportedFeatureSchema => nomatch htoRow

/-- The row of an impression of the window was made in its round. -/
theorem exists_of_rowOf (himpressions : (impressions.map Impression.id).Nodup)
    (hevents : (events.map BehaviorEvent.id).Nodup)
    (hfeatures : (features.map ArticleFeatureRecord.id).Nodup)
    (h : buildRankingSamplesV2 rt impressions events features config = .ok result)
    (hi : i ∈ windowImpressions config impressions) (hrow : row ∈ result.rows) (hof : RowOf i row) :
    ∃ source, rankingOutcome rt config events features i = .ok (.row source)
      ∧ row = { source with split := row.split } := by
  obtain ⟨seen, -, hseen, -⟩ := buildRankingSamplesV2_eq_ok himpressions hevents hfeatures h
  obtain ⟨j, hj, source, hround, heq⟩ := exists_of_mem_rows himpressions hevents hfeatures h hrow
  have hplace : requestPosition j = requestPosition i := by
    obtain ⟨_, _, _, -, -, -, -, hmade⟩ := rankingOutcome_eq_row hround
    obtain ⟨_, _, _, _, _, -, -, -, -, -, -, hsource⟩ := rankingRow_eq_ok hmade
    obtain ⟨hidentity, hposition⟩ := hof
    rw [heq, hsource] at hidentity hposition
    exact Prod.ext hidentity hposition
  have hsame : j = i := List.inj_on_of_nodup_map (nodup_requestPositions hseen) hj hi hplace
  exact ⟨source, hsame ▸ hround, heq⟩

/-- **The history of a row.**  An entry was engaged before serving, with a feature that was there. -/
theorem history_of_row (hfeatures : (features.map ArticleFeatureRecord.id).Nodup)
    (h : rankingOutcome rt config events features i = .ok (.row row))
    {entry : RankingHistoryEntry F} (hentry : entry ∈ row.history) :
    ∃ engaged, entry.engagedAt = some engaged ∧ engaged < row.servedAt
      ∧ ∃ f ∈ features, AvailableAt engaged f
        ∧ entry.article = articleRepresentationFromFeature rt f config.salt none none none := by
  obtain ⟨_, _, _, -, -, -, -, hmade⟩ := rankingOutcome_eq_row h
  obtain ⟨_, _, _, _, _, -, hserved, -, -, -, hsnapshot, rfl⟩ := rankingRow_eq_ok hmade
  obtain ⟨index, hindex, rfl⟩ := List.mem_mapIdx.mp hentry
  obtain ⟨e, -, hclick, f, hf, hpost, havailable, heq⟩ :=
    mem_buildHistorySnapshot hfeatures hsnapshot (List.getElem_mem hindex)
  refine ⟨e.occurredAt, ?_, ?_, f, hf, havailable, ?_⟩
  · rw [heq]
    rfl
  · have hbefore := hclick.2.2.2.1
    simp only [Timestamp.lt_iff, Timestamp.le_iff] at hbefore hserved ⊢
    omega
  · rw [heq]
    simp only [historyEntry, articleRepresentationFromFeature, hpost]

/-- **Leakage freedom.**  Two inputs that the builder and its validation accept:
    when they differ only in events ingested after the extraction and in feature rows later than the
    reference time of every impression, the rows are identical; when they also differ in clicks at or
    after the reference time of an impression, the context of its row is; and every entry of a history
    was engaged before serving, with a feature row that was there. -/
theorem leakageFree (himpressions : (impressions.map Impression.id).Nodup)
    (hevents : (events.map BehaviorEvent.id).Nodup)
    (hevents' : (events'.map BehaviorEvent.id).Nodup)
    (hfeatures : (features.map ArticleFeatureRecord.id).Nodup)
    (hfeatures' : (features'.map ArticleFeatureRecord.id).Nodup)
    (h : buildRankingSamplesV2 rt impressions events features config = .ok result)
    (h' : buildRankingSamplesV2 rt impressions events' features' config = .ok result') :
    (SameFeatureRows impressions features features' → SameEvents config events events' →
      result.rows = result'.rows)
    ∧ (∀ i ∈ windowImpressions config impressions,
        SameFeatureRows impressions features features' → SameEventsBefore config i events events' →
        ∀ row ∈ result.rows, ∀ row' ∈ result'.rows, RowOf i row → RowOf i row' →
          row.history = row'.history ∧ row.article = row'.article
            ∧ row.declaredTopics = row'.declaredTopics
            ∧ row.declaredTopicsObservedAt = row'.declaredTopicsObservedAt)
    ∧ ∀ row ∈ result.rows, ∀ entry ∈ row.history, ∃ engaged, entry.engagedAt = some engaged
        ∧ engaged < row.servedAt ∧ ∃ f ∈ features, AvailableAt engaged f
          ∧ entry.article = articleRepresentationFromFeature rt f config.salt none none none := by
  refine ⟨?_, ?_, ?_⟩
  · intro hrows hkept
    obtain ⟨-, outcomes, -, houtcomes, rfl⟩ :=
      buildRankingSamplesV2_eq_ok himpressions hevents hfeatures h
    obtain ⟨-, outcomes', -, houtcomes', rfl⟩ :=
      buildRankingSamplesV2_eq_ok himpressions hevents' hfeatures' h'
    have heq : outcomes = outcomes' := by
      refine Lib.mapM_congr ?_ houtcomes houtcomes'
      intro i hi outcome outcome' hround hround'
      have hmem : i ∈ impressions := List.mem_of_mem_filter (Lib.mem_stableSort.mp hi)
      exact rankingOutcome_congr hfeatures hfeatures' hmem hrows hkept hround hround'
    rw [heq]
    rfl
  · intro i hi hrows hkept row hrow row' hrow' hof hof'
    obtain ⟨source, hround, heq⟩ := exists_of_rowOf himpressions hevents hfeatures h hi hrow hof
    obtain ⟨source', hround', heq'⟩ :=
      exists_of_rowOf himpressions hevents' hfeatures' h' hi hrow' hof'
    obtain ⟨_, _, _, -, -, -, -, hmade⟩ := rankingOutcome_eq_row hround
    obtain ⟨_, _, _, -, -, -, -, hmade'⟩ := rankingOutcome_eq_row hround'
    obtain ⟨reference, -, -, -, -, hreference, -⟩ := rankingRow_eq_ok hmade
    have hextraction := reference_le_extraction hround hreference
    have hmem : i ∈ impressions := List.mem_of_mem_filter hi
    obtain ⟨hcontext, -⟩ := rankingRow_congr hfeatures hfeatures' hreference
      (fun t ht => hrows.before hmem hreference ht)
      (hkept.clicks hreference hextraction i.userId) hmade hmade'
    rw [heq, heq']
    exact ⟨hcontext.history, hcontext.article, hcontext.topics, hcontext.observedAt⟩
  · intro row hrow entry hentry
    obtain ⟨i, -, source, hround, heq⟩ := exists_of_mem_rows himpressions hevents hfeatures h hrow
    rw [heq] at hentry ⊢
    exact history_of_row hfeatures hround hentry

end Rows

/-! ### An example -/

/-- A time of January 2026, UTC. -/
private def january (day hour : Nat) : Timestamp := ⟨⟨2026, 1, day, hour, 0, 0, 0, some 0⟩, rfl⟩

/-- The hashes of the ids of the example. -/
private def hashes : List (String × String) :=
  [("s:00000000-0000-0000-0000-0000000c73b3",
      "33871d5268e3e90302938f34796b685466049032093d04169693264154952932"),
    ("s:00000000-0000-0000-0000-00000014f690",
      "729649f815b946040c078496be17437024f86624863989568231016045795b36"),
    ("s:00000000-0000-0000-0000-00000001eb5f",
      "b91590a4135f24520942629d947634780135650b8143d7b5990e061286029416"),
    ("s:00000000-0000-0000-0000-0000000387fa",
      "b0249872593b09c1258578545004728c3d44871f1214884641239990073e967e"),
    ("s:00000000-0000-0000-0000-0000000a8e91",
      "236a884493367a77ff4f553866528249678968d3142f16132020646249c01105")]

/-- The texts of the example are in lower case, and its embeddings have integer entries. -/
private def integers : Runtime Int where
  sha256 text := (hashes.lookup text).getD ""
  hmacSha256 _ _ := "4317185655386de36f43c9167140882006f679325f213961947e344037687342"
  lower s := s
  islower _ := true
  isfinite _ := true
  unitNorm v := (v.map fun x => x * x).sum == 1

private def settings : DatasetConfig :=
  .ofTimes (january 10 0) (january 11 0) (january 20 0) (by decide) (by decide)

/-- What the request was ranked with, an hour before it was served. -/
private def snapshotOfRequest : Oecophylla.Python.Dict :=
  [("schema_version", .str "rank-features-v1"), ("topic_relevance", .none), ("freshness", .none),
    ("safety_score", .none), ("candidate_source", .str "follow"), ("is_followed_author", .none),
    ("author_affinity", .none), ("heuristic_score", .none), ("ml_score", .none),
    ("preference_observed_at", .str "2026-01-10T05:00:00Z")]

/-- User 5 is served two posts in one request. -/
private def served : List Impression :=
  [⟨816051, 18651, 5, 125791, 0, "ranked", "m", snapshotOfRequest, january 10 6⟩,
    ⟨1373840, 18651, 5, 231418, 1, "ranked", "m", snapshotOfRequest, january 10 6⟩]

private def behaviour (id : Nat) (impressionId : Option Nat) (postId : Nat) (eventType : String)
    (occurredAt ingestedAt : Timestamp) : BehaviorEvent :=
  ⟨id, impressionId, 5, postId, eventType, none, occurredAt, some ingestedAt, some "v2", none⟩

/-- The user has clicked a third post before, sees both posts and clicks the first. -/
private def seen : List BehaviorEvent :=
  [behaviour 101 none 691857 "click" (january 5 0) (january 5 0),
    behaviour 102 (some 816051) 125791 "visible" (january 10 7) (january 10 7),
    behaviour 103 (some 1373840) 231418 "visible" (january 10 7) (january 10 7),
    behaviour 104 (some 816051) 125791 "click" (january 10 8) (january 10 8)]

private def embedded (id postId : Nat) (time : Timestamp) : ArticleFeatureRecord Int :=
  ⟨id, postId, pinnedEncoderVersion,
    "66785409653e72800245bb8789022996744d8421205c30633d6487784782a492", [1, 0], time, time⟩

private def embeddings : List (ArticleFeatureRecord Int) :=
  [embedded 201 125791 (january 1 0), embedded 202 231418 (january 1 0), embedded 203 691857 (january 1 0)]

/-- An earlier click of the user arrives after the extraction. -/
private def ingestedLate : BehaviorEvent := behaviour 105 none 231418 "click" (january 4 0) (january 21 0)

/-- The third post is embedded again after the request. -/
private def embeddedLate : ArticleFeatureRecord Int := embedded 204 691857 (january 12 0)

/-- The builder goes through, with what arrives late and without it. -/
private theorem built_both :
    (buildRankingSamplesV2 integers served seen embeddings settings).toOption.isSome
      ∧ (buildRankingSamplesV2 integers served (seen ++ [ingestedLate]) (embeddings ++ [embeddedLate])
        settings).toOption.isSome := by
  constructor
  · decide +kernel
  · decide +kernel

private theorem built :
    (buildRankingSamplesV2 integers served seen embeddings settings).toOption.isSome := built_both.1

private theorem builtLate :
    (buildRankingSamplesV2 integers served (seen ++ [ingestedLate]) (embeddings ++ [embeddedLate])
      settings).toOption.isSome := built_both.2

private theorem eq_ok_get {α : Type} {x : Except Raised α} (h : x.toOption.isSome) :
    x = .ok (x.toOption.get h) := by
  cases x with
  | ok a => rfl
  | error e => simp [Except.toOption] at h

/-- What arrives late changes no row. -/
theorem leakageFree_late :
    ((buildRankingSamplesV2 integers served seen embeddings settings).toOption.get built).rows
      = ((buildRankingSamplesV2 integers served (seen ++ [ingestedLate])
        (embeddings ++ [embeddedLate]) settings).toOption.get builtLate).rows := by
  have hrows : SameFeatureRows served embeddings (embeddings ++ [embeddedLate]) := by
    have hlate : Late served embeddedLate := by decide +kernel
    unfold SameFeatureRows
    rw [List.filter_append, List.filter_cons_of_neg (by simpa using hlate)]
    simp
  have hevents : SameEvents settings seen (seen ++ [ingestedLate]) := by
    have hlate : ¬ IngestedBy settings.extractionTime ingestedLate := by decide
    unfold SameEvents
    rw [List.filter_append, List.filter_cons_of_neg (by simpa using hlate)]
    simp
  exact (leakageFree (by decide) (by decide) (by decide) (by decide) (by decide)
    (eq_ok_get built) (eq_ok_get builtLate)).1 hrows hevents

end Oecophylla.Dataset
