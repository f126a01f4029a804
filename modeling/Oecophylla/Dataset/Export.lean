import Oecophylla.Dataset.History

namespace Oecophylla.Dataset

open Lib (stableSort)
open Oecophylla.Python (Value Dict Timestamp str)

/-!
# The tables and their export — `fetch_dataset_v2_inputs`

* `EventRow` — a row of `behavior_events`; `EventRow.toEvent` is `BehaviorEvent.from_mapping`;
* `Database` — the tables of the dataset, their ids being unique;
* `exportedImpressions`, `exportedEvents`, `exportedFeatures` — the three queries;
* `historyClick_toEvent` — what a click of the history is, on the columns;
* `clicks_exportedEvents`, `selectHistoryFeature_exported` — the export has all clicks before a
  reference time, and the features of the configured encoder.

The text of a JSON value that is neither a string nor null (`->>`) is a parameter, `text`.
-/

/-- A row of `behavior_events`. -/
structure EventRow where
  id : Nat
  impressionId : Option Nat
  userId : Nat
  postId : Nat
  eventType : String
  dwellMs : Option Int
  metadata : Dict
  occurredAt : Timestamp
  ingestedAt : Timestamp

/-- The tables. -/
structure Database (F : Type) where
  impressions : List Impression
  events : List EventRow
  features : List (ArticleFeatureRecord F)
  impressions_nodup : (impressions.map Impression.id).Nodup
  events_nodup : (events.map EventRow.id).Nodup
  features_nodup : (features.map ArticleFeatureRecord.id).Nodup

section Rows

variable (text : Value → String)

/-- `metadata->>'event_version'`. -/
def EventRow.eventVersion (row : EventRow) : Option String :=
  match row.metadata.get "event_version" with
  | none | some .none => none
  | some (.str version) => some version
  | some other => some (text other)

/-- `BehaviorEvent.from_mapping(row)`, of a row with the column `event_version`. -/
def EventRow.toEvent (row : EventRow) : BehaviorEvent where
  id := row.id
  impressionId := row.impressionId
  userId := row.userId
  postId := row.postId
  eventType := row.eventType
  dwellMs := row.dwellMs
  occurredAt := row.occurredAt
  ingestedAt := some row.ingestedAt
  eventVersion :=
    match row.eventVersion text with
    | some version => some version
    | none =>
      match row.metadata.get "event_version" with
      | none | some .none => none
      | some other => some (str other)
  metadata := some row.metadata

/-- `ORDER BY occurred_at, id`. -/
def EventRow.compareOccurred (a b : EventRow) : Ordering :=
  (compare a.occurredAt.micros b.occurredAt.micros).then (compare a.id b.id)

end Rows

section Queries

variable {F : Type} (db : Database F) (text : Value → String) (config : DatasetConfig)

/-- `impression_rows`. -/
def exportedImpressions : List Impression :=
  stableSort (fun a b => (compare a.servedAt.micros b.servedAt.micros).then (compare a.id b.id))
    (db.impressions.filter fun i => config.start ≤ i.servedAt ∧ i.servedAt < config.stop)

/-- The `WHERE` of the events. -/
def Exported (impressionIds userIds : List Nat) (row : EventRow) : Prop :=
  ((∃ i ∈ row.impressionId, i ∈ impressionIds)
      ∨ row.userId ∈ userIds ∧ row.eventType = "click" ∧ row.eventVersion text = some "v2"
        ∧ row.occurredAt < config.stop)
    ∧ row.occurredAt ≤ config.extractionTime ∧ row.ingestedAt ≤ config.extractionTime

instance (impressionIds userIds : List Nat) (row : EventRow) :
    Decidable (Exported text config impressionIds userIds row) :=
  inferInstanceAs (Decidable ((_ ∨ _) ∧ _ ∧ _))

/-- `event_rows`; there are none without impressions. -/
def exportedRows : List EventRow :=
  let impressions := exportedImpressions db config
  stableSort EventRow.compareOccurred (db.events.filter fun row =>
    impressions ≠ [] ∧ Exported text config (impressions.map Impression.id)
      (impressions.map Impression.userId) row)

/-- The events of the export. -/
def exportedEvents : List BehaviorEvent := (exportedRows db text config).map (EventRow.toEvent text)

/-- `post_ids`. -/
def exportedPosts : List Nat :=
  (exportedImpressions db config).map Impression.postId
    ++ ((exportedRows db text config).filter fun row => row.eventType = "click").map EventRow.postId

/-- `ORDER BY post_id, source_updated_at, computed_at, id`. -/
def compareRevision (a b : ArticleFeatureRecord F) : Ordering :=
  (compare a.postId b.postId).then ((compare a.sourceUpdatedAt.micros b.sourceUpdatedAt.micros).then
    ((compare a.computedAt.micros b.computedAt.micros).then (compare a.id b.id)))

/-- `feature_rows`. -/
def exportedFeatures : List (ArticleFeatureRecord F) :=
  stableSort compareRevision (db.features.filter fun f =>
    f.postId ∈ exportedPosts db text config ∧ f.encoderVersion = config.encoderVersion
      ∧ f.computedAt ≤ config.extractionTime)

end Queries

/-! ### Orders -/

instance : Std.TransCmp compareOccurred :=
  inferInstanceAs (Std.TransCmp (compareLex
    (Lib.compareBy compare fun e : BehaviorEvent => e.occurredAt.micros)
    (Lib.compareBy compare BehaviorEvent.id)))

instance {F : Type} : Std.TransCmp (compareNewest (F := F)) :=
  inferInstanceAs (Std.TransCmp (compareLex
    (Lib.compareBy (fun a b : Int => compare b a) fun f : ArticleFeatureRecord F =>
      f.sourceUpdatedAt.micros)
    (compareLex (Lib.compareBy (fun a b : Int => compare b a) fun f : ArticleFeatureRecord F =>
        f.computedAt.micros)
      (Lib.compareBy (fun a b : Nat => compare b a) ArticleFeatureRecord.id))))

theorem compareOccurred_ne_eq {events : List BehaviorEvent}
    (h : (events.map BehaviorEvent.id).Nodup) :
    events.Pairwise fun a b => compareOccurred a b ≠ .eq := by
  refine (List.pairwise_map.mp h).imp fun hne heq => ?_
  unfold compareOccurred at heq
  rw [Ordering.then_eq_eq, Nat.compare_eq_eq] at heq
  exact hne heq.2

theorem compareNewest_ne_eq {F : Type} {features : List (ArticleFeatureRecord F)}
    (h : (features.map ArticleFeatureRecord.id).Nodup) :
    features.Pairwise fun a b => compareNewest a b ≠ .eq := by
  refine (List.pairwise_map.mp h).imp fun hne heq => ?_
  unfold compareNewest at heq
  rw [Ordering.then_eq_eq, Ordering.then_eq_eq, Nat.compare_eq_eq] at heq
  exact hne heq.2.2.symm

/-! ### Clicks -/

section Clicks

variable {F : Type} {db : Database F} {text : Value → String} {config : DatasetConfig}

/-- What the resolver reads as the version of an event. -/
theorem exists_record (e : BehaviorEvent) :
    ∃ attributes, e.record = .record attributes
      ∧ Label.Python.objectValue attributes "event_version"
        = match e.eventVersion with
          | some version => .str version
          | none => (e.metadata.bind fun metadata => metadata.get "event_version").getD .none := by
  refine ⟨_, rfl, ?_⟩
  cases e.eventVersion with
  | some version => rfl
  | none =>
    cases e.metadata with
    | some metadata => rfl
    | none => rfl

/-- The label version of an event that has a version. -/
theorem eventLabelVersion_of_some {e : BehaviorEvent} {version : String}
    (h : e.eventVersion = some version) :
    (eventLabelVersion e).toOption = some .v2 ↔ version = "v2" := by
  obtain ⟨attributes, hrecord, hvalue⟩ := exists_record e
  rw [h] at hvalue
  unfold eventLabelVersion Label.Python.eventLabelVersion
  rw [hrecord]
  dsimp only at hvalue ⊢
  rw [hvalue]
  have hstr : str (.str version) = version := rfl
  dsimp only
  rw [hstr]
  by_cases h1 : version = "v1"
  · subst h1
    simp [Except.mapError, Except.toOption]
  · by_cases h2 : version = "v2"
    · simp [h2, Except.mapError, Except.toOption]
    · simp [h1, h2, Except.mapError, Except.toOption]

/-- An event without a version has the version v1. -/
theorem eventLabelVersion_of_none {e : BehaviorEvent} (h : e.eventVersion = none)
    (hmetadata : (e.metadata.bind fun metadata => metadata.get "event_version").getD .none = .none) :
    eventLabelVersion e = .ok .v1 := by
  obtain ⟨attributes, hrecord, hvalue⟩ := exists_record e
  rw [h] at hvalue
  unfold eventLabelVersion Label.Python.eventLabelVersion
  rw [hrecord]
  dsimp only at hvalue ⊢
  rw [hvalue, hmetadata]
  rfl

/-- The label version of a row: its column. -/
theorem eventLabelVersion_toEvent (row : EventRow) :
    (eventLabelVersion (row.toEvent text)).toOption = some .v2
      ↔ row.eventVersion text = some "v2" := by
  cases hversion : row.eventVersion text with
  | some version =>
    have hevent : (row.toEvent text).eventVersion = some version := by
      unfold EventRow.toEvent
      rw [hversion]
    rw [eventLabelVersion_of_some hevent, Option.some.injEq]
  | none =>
    -- the key is missing, or null
    have hmissing : row.metadata.get "event_version" = none
        ∨ row.metadata.get "event_version" = some .none := by
      unfold EventRow.eventVersion at hversion
      split at hversion
      · next h => exact .inl h
      · next h => exact .inr h
      · cases hversion
      · cases hversion
    have hevent : (row.toEvent text).eventVersion = none := by
      unfold EventRow.toEvent
      rw [hversion]
      rcases hmissing with h | h
      · rw [h]
      · rw [h]
    have hmetadata : (row.metadata.get "event_version").getD .none = .none := by
      rcases hmissing with h | h
      · rw [h]
        rfl
      · rw [h]
        rfl
    rw [eventLabelVersion_of_none hevent hmetadata]
    simp [Except.toOption]

/-- A click of the history, on the columns. -/
theorem historyClick_toEvent (userId : Nat) (reference : Timestamp) (row : EventRow) :
    HistoryClick userId reference (row.toEvent text)
      ↔ row.userId = userId ∧ row.eventType = "click" ∧ row.eventVersion text = some "v2"
        ∧ row.occurredAt < reference ∧ row.ingestedAt ≤ reference := by
  unfold HistoryClick
  rw [eventLabelVersion_toEvent]
  have hingested : IngestedBy reference (row.toEvent text) ↔ row.ingestedAt ≤ reference := by
    unfold IngestedBy
    exact ⟨fun h => h _ rfl, fun h i hi => Option.some.inj hi ▸ h⟩
  rw [hingested]
  rfl

variable (db text) in
/-- The clicks of the history of a user in the tables. -/
def Database.historyClicks (userId : Nat) (reference : Timestamp) : List BehaviorEvent :=
  (db.events.map (EventRow.toEvent text)).filter fun e => HistoryClick userId reference e

theorem nodup_historyClicks (userId : Nat) (reference : Timestamp) :
    ((db.historyClicks text userId reference).map BehaviorEvent.id).Nodup := by
  refine List.Nodup.sublist (List.filter_sublist.map _) ?_
  rw [List.map_map]
  exact db.events_nodup

theorem mem_exportedRows {row : EventRow} : row ∈ exportedRows db text config
    ↔ row ∈ db.events ∧ exportedImpressions db config ≠ []
      ∧ Exported text config ((exportedImpressions db config).map Impression.id)
        ((exportedImpressions db config).map Impression.userId) row := by
  unfold exportedRows
  rw [Lib.mem_stableSort, List.mem_filter, decide_eq_true_iff]

/-- A click of the history before a reference time of the window is exported. -/
theorem exported_of_historyClick {i : Impression} {reference : Timestamp} {row : EventRow}
    (hi : i ∈ exportedImpressions db config) (hstop : reference.micros ≤ config.stop.micros)
    (hextraction : reference ≤ config.extractionTime)
    (hclick : HistoryClick i.userId reference (row.toEvent text)) :
    exportedImpressions db config ≠ []
      ∧ Exported text config ((exportedImpressions db config).map Impression.id)
        ((exportedImpressions db config).map Impression.userId) row := by
  obtain ⟨huser, hclick, hversion, hbefore, hingested⟩ :=
    (historyClick_toEvent i.userId reference row).mp hclick
  refine ⟨List.ne_nil_of_mem hi, .inr ⟨huser ▸ List.mem_map_of_mem hi, hclick, hversion, ?_⟩, ?_, ?_⟩
  · show row.occurredAt.micros < config.stop.micros
    have hlt : row.occurredAt.micros < reference.micros := hbefore
    omega
  · show row.occurredAt.micros ≤ config.extractionTime.micros
    have hlt : row.occurredAt.micros < reference.micros := hbefore
    have hle : reference.micros ≤ config.extractionTime.micros := hextraction
    omega
  · show row.ingestedAt.micros ≤ config.extractionTime.micros
    have hle : row.ingestedAt.micros ≤ reference.micros := hingested
    have hle' : reference.micros ≤ config.extractionTime.micros := hextraction
    omega

/-- **The export has the clicks of the history.** -/
theorem historyClicks_exportedEvents {i : Impression} {reference : Timestamp}
    (hi : i ∈ exportedImpressions db config) (hstop : reference.micros ≤ config.stop.micros)
    (hextraction : reference ≤ config.extractionTime) :
    ((exportedEvents db text config).filter fun e => HistoryClick i.userId reference e).Perm
      (db.historyClicks text i.userId reference) := by
  have hrows : (exportedRows db text config).filter
        (fun row => HistoryClick i.userId reference (row.toEvent text))
      |>.Perm (db.events.filter fun row => HistoryClick i.userId reference (row.toEvent text)) := by
    refine ((Lib.stableSort_perm _ _).filter _).trans ?_
    rw [List.filter_filter]
    refine List.Perm.of_eq (List.filter_congr fun row _ => ?_)
    by_cases hclick : HistoryClick i.userId reference (row.toEvent text)
    · have hexported := exported_of_historyClick hi hstop hextraction hclick
      simp [hclick, hexported]
    · simp [hclick]
  unfold exportedEvents Database.historyClicks
  rw [List.filter_map, List.filter_map]
  exact hrows.map _

/-! ### Features -/

theorem nodup_exportedFeatures :
    ((exportedFeatures db text config).map ArticleFeatureRecord.id).Nodup := by
  have hrows : ((exportedFeatures db text config).map ArticleFeatureRecord.id).Perm _ :=
    (Lib.stableSort_perm _ _).map ArticleFeatureRecord.id
  exact hrows.nodup_iff.mpr (List.Nodup.sublist (List.filter_sublist.map _) db.features_nodup)

/-- A selection looks at the features of a post that were there, in any order. -/
theorem selectHistoryFeature_eq {features : List (ArticleFeatureRecord F)} {t : Timestamp}
    (p : ArticleFeatureRecord F → Bool)
    (hperm : (features.filter fun f => AvailableAt t f).Perm
      (db.features.filter fun f => p f && AvailableAt t f)) :
    selectHistoryFeature features t = selectHistoryFeature (db.features.filter p) t := by
  have hcomm : ((db.features.filter p).filter fun f => AvailableAt t f)
      = db.features.filter fun f => p f && AvailableAt t f := by
    rw [List.filter_filter]
    exact List.filter_congr fun f _ => Bool.and_comm _ _
  unfold selectHistoryFeature
  rw [hcomm]
  refine Lib.firstLeast_eq_of_perm hperm ?_
  have hnodup : ((features.filter fun f => AvailableAt t f).map ArticleFeatureRecord.id).Nodup :=
    (hperm.map _).nodup_iff.mpr (List.Nodup.sublist (List.filter_sublist.map _) db.features_nodup)
  exact compareNewest_ne_eq hnodup

/-- **The export has the features of the configured encoder.** -/
theorem selectHistoryFeature_exported {postId : Nat} {t : Timestamp}
    (hpost : postId ∈ exportedPosts db text config) (ht : t ≤ config.extractionTime) :
    selectHistoryFeature ((exportedFeatures db text config).filter fun f => f.postId = postId) t
      = selectHistoryFeature (db.features.filter fun f =>
          f.postId = postId ∧ f.encoderVersion = config.encoderVersion) t := by
  apply selectHistoryFeature_eq
  rw [List.filter_filter]
  refine ((Lib.stableSort_perm _ _).filter _).trans ?_
  rw [List.filter_filter]
  refine List.Perm.of_eq (List.filter_congr fun f _ => ?_)
  by_cases havailable : AvailableAt t f
  · by_cases hf : f.postId = postId
    · have hcomputed : f.computedAt ≤ config.extractionTime := Int.le_trans havailable.2 ht
      simp [havailable, hf, hpost, hcomputed]
    · simp [hf]
  · simp [havailable]

end Clicks

end Oecophylla.Dataset
