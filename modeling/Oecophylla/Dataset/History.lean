import Oecophylla.Dataset.Schemas

namespace Oecophylla.Dataset

open Lib (stableSort firstLeast)
open Oecophylla.Python (Timestamp)

/-!
# The user history of an impression — `build_dataset.py`

* `deduplicate` — records by id;
* `qualifiesForHistory`, `selectHistoryFeature`, `buildHistorySnapshot` — the clicks before the
  reference time, each with the newest feature that was there when the click was made;
* `buildHistorySnapshot_congr` — two inputs with the same clicks before the reference time and the
  same features there have the same snapshot;
* `mem_buildHistorySnapshot` — where an entry comes from.
-/

variable {F : Type}

/-- `_deduplicate(records)`. -/
def deduplicate {α : Type} (id : α → Nat) (same : α → α → Bool) (records : List α) :
    Except Raised (List α) :=
  match Lib.collect (fun r => some (id r)) same records with
  | .ok read => .ok read.unique
  | .error key =>
    .error (.valueError ("conflicting duplicate record: " ++ Oecophylla.Python.uuidText key))

/-- `event_label_version(event)`. -/
def eventLabelVersion (e : BehaviorEvent) : Except Raised Label.Python.LabelVersion :=
  (Label.Python.eventLabelVersion e.record).mapError .label

/-- `event.ingested_at is None or event.ingested_at <= t`. -/
def IngestedBy (t : Timestamp) (e : BehaviorEvent) : Prop := ∀ i ∈ e.ingestedAt, i ≤ t

instance (t : Timestamp) (e : BehaviorEvent) : Decidable (IngestedBy t e) :=
  inferInstanceAs (Decidable (∀ _ ∈ _, _))

/-- `_history_total_limit(config)`. -/
def DatasetConfig.historyTotalLimit (config : DatasetConfig) : Nat :=
  config.historyRecentLimit + config.historyLongTermLimit

/-- `_qualifies_for_history(event, reference_at)`. -/
def qualifiesForHistory (e : BehaviorEvent) (referenceAt : Timestamp) : Except Raised Bool :=
  if e.eventType = "click" then do
    let version ← eventLabelVersion e
    pure (version = .v2 ∧ e.occurredAt < referenceAt ∧ IngestedBy referenceAt e)
  else pure false

/-- The feature was there at the time. -/
def AvailableAt (t : Timestamp) (f : ArticleFeatureRecord F) : Prop :=
  f.sourceUpdatedAt ≤ t ∧ f.computedAt ≤ t

instance (t : Timestamp) (f : ArticleFeatureRecord F) : Decidable (AvailableAt t f) :=
  inferInstanceAs (Decidable (_ ∧ _))

/-- Newer features come first: the key is `(source_updated_at, computed_at, id)`. -/
def compareNewest (a b : ArticleFeatureRecord F) : Ordering :=
  (compare b.sourceUpdatedAt.micros a.sourceUpdatedAt.micros).then
    ((compare b.computedAt.micros a.computedAt.micros).then (compare b.id a.id))

/-- `_select_history_feature(features, engaged_at)`. -/
def selectHistoryFeature (features : List (ArticleFeatureRecord F)) (engagedAt : Timestamp) :
    Option (ArticleFeatureRecord F) :=
  firstLeast compareNewest (features.filter fun f => AvailableAt engagedAt f)

/-- The sort key of an event: `(event.occurred_at, event.id)`. -/
def compareOccurred (a b : BehaviorEvent) : Ordering :=
  (compare a.occurredAt.micros b.occurredAt.micros).then (compare a.id b.id)

/-- `items[-n:] if n else []`. -/
def lastItems {α : Type} (n : Nat) (items : List α) : List α := items.drop (items.length - n)

/-- The entry of a click. -/
def historyEntry (e : BehaviorEvent) (f : ArticleFeatureRecord F) : HistoryEntry F where
  eventId := e.id
  postId := e.postId
  eventType := "click"
  engagedAt := e.occurredAt
  encoderVersion := f.encoderVersion
  contentHash := f.contentHash
  featureSourceUpdatedAt := f.sourceUpdatedAt
  featureComputedAt := f.computedAt
  embedding := f.embedding

/-- The loop over the selected events. -/
def historyEntries (features : List (ArticleFeatureRecord F)) (selectedEvents : List BehaviorEvent) :
    List (HistoryEntry F) :=
  selectedEvents.filterMap fun e =>
    (selectHistoryFeature (features.filter fun f => f.postId = e.postId) e.occurredAt).map
      (historyEntry e)

/-- `build_history_snapshot(user_id, reference_at, events, article_features, config)`. -/
def buildHistorySnapshot [BEq F] (userId : Nat) (referenceAt : Timestamp)
    (events : List BehaviorEvent) (articleFeatures : List (ArticleFeatureRecord F))
    (config : DatasetConfig) : Except Raised (HistorySnapshot F) := do
  let qualifying ← events.filterM fun e =>
    if e.userId = userId then qualifiesForHistory e referenceAt else pure false
  let selectedEvents := lastItems config.historyTotalLimit (stableSort compareOccurred qualifying)
  let features ← deduplicate ArticleFeatureRecord.id ArticleFeatureRecord.eq articleFeatures
  pure {
    schemaVersion := "user-history-snapshot-v1"
    userId := userId
    referenceAt := referenceAt
    entries := historyEntries features selectedEvents }

/-! ### Features -/

theorem deduplicate_of_nodup {α : Type} {id : α → Nat} {same : α → α → Bool} {records : List α}
    (hnodup : (records.map id).Nodup) : deduplicate id same records = .ok records := by
  have hkeys : (records.map fun r => some (id r)).Nodup := by
    have hmap : (records.map fun r => some (id r)) = (records.map id).map some := by simp
    rw [hmap]
    exact hnodup.map (Option.some_injective _)
  unfold deduplicate
  rw [Lib.collect_of_nodup (fun _ _ => rfl) hkeys]

variable {features features' : List (ArticleFeatureRecord F)} {t : Timestamp}

/-- Both inputs have the same features at the time. -/
def SameFeatures (t : Timestamp) (features features' : List (ArticleFeatureRecord F)) : Prop :=
  (features.filter fun f => AvailableAt t f) = features'.filter fun f => AvailableAt t f

/-- The selection looks only at the features that were there. -/
theorem selectHistoryFeature_congr (h : SameFeatures t features features')
    (p : ArticleFeatureRecord F → Bool) :
    selectHistoryFeature (features.filter p) t = selectHistoryFeature (features'.filter p) t := by
  have hcomm : ∀ l : List (ArticleFeatureRecord F),
      ((l.filter p).filter fun f => AvailableAt t f)
        = (l.filter fun f => AvailableAt t f).filter p := by
    intro l
    rw [List.filter_filter, List.filter_filter]
    apply List.filter_congr
    intro f _
    exact Bool.and_comm _ _
  unfold selectHistoryFeature
  rw [hcomm, hcomm, h]

/-- A selected feature is one of the features, and was there. -/
theorem selectHistoryFeature_eq_some {f : ArticleFeatureRecord F}
    (h : selectHistoryFeature features t = some f) : f ∈ features ∧ AvailableAt t f := by
  obtain ⟨hmem, havailable⟩ := List.mem_filter.mp (Lib.firstLeast_mem h)
  exact ⟨hmem, of_decide_eq_true havailable⟩

/-! ### Clicks -/

variable {e : BehaviorEvent} {userId : Nat} {referenceAt : Timestamp}

/-- The event counts for the history of the user at the reference time. -/
def HistoryClick (userId : Nat) (referenceAt : Timestamp) (e : BehaviorEvent) : Prop :=
  e.userId = userId ∧ e.eventType = "click" ∧ (eventLabelVersion e).toOption = some .v2
    ∧ e.occurredAt < referenceAt ∧ IngestedBy referenceAt e

instance (userId : Nat) (referenceAt : Timestamp) (e : BehaviorEvent) :
    Decidable (HistoryClick userId referenceAt e) :=
  inferInstanceAs (Decidable (_ ∧ _))

/-- The selection tests for the clicks of the history. -/
theorem qualifies_eq_ok {b : Bool}
    (h : (if e.userId = userId then qualifiesForHistory e referenceAt else pure false) = .ok b) :
    b = decide (HistoryClick userId referenceAt e) := by
  unfold HistoryClick
  by_cases huser : e.userId = userId
  · rw [if_pos huser, qualifiesForHistory] at h
    by_cases hclick : e.eventType = "click"
    · rw [if_pos hclick, Lib.except_bind_eq_ok] at h
      obtain ⟨version, hversion, h⟩ := h
      rw [Lib.except_pure_eq_ok] at h
      simp [h, huser, hclick, hversion, Except.toOption]
    · rw [if_neg hclick, Lib.except_pure_eq_ok] at h
      simp [h, hclick]
  · rw [if_neg huser, Lib.except_pure_eq_ok] at h
    simp [h, huser]

/-- **The snapshot.**  It has the entries of the last clicks of the history. -/
theorem buildHistorySnapshot_eq_ok [BEq F] {events : List BehaviorEvent} {config : DatasetConfig}
    {snapshot : HistorySnapshot F} (hnodup : (features.map ArticleFeatureRecord.id).Nodup)
    (h : buildHistorySnapshot userId referenceAt events features config = .ok snapshot) :
    snapshot.entries = historyEntries features (lastItems config.historyTotalLimit
      (stableSort compareOccurred (events.filter fun e => HistoryClick userId referenceAt e))) := by
  unfold buildHistorySnapshot at h
  rw [Lib.except_bind_eq_ok] at h
  obtain ⟨qualifying, hqualifying, h⟩ := h
  have hclicks := Lib.filterM_eq_ok (fun e _ b hb => qualifies_eq_ok hb) hqualifying
  rw [deduplicate_of_nodup hnodup, hclicks] at h
  simp only [bind, Except.bind, Lib.except_pure_eq_ok] at h
  rw [h]

/-- The selected events are clicks of the history. -/
theorem mem_selected {events : List BehaviorEvent} {n : Nat}
    (h : e ∈ lastItems n
      (stableSort compareOccurred (events.filter fun e => HistoryClick userId referenceAt e))) :
    e ∈ events ∧ HistoryClick userId referenceAt e := by
  have hmem : e ∈ events.filter fun e => HistoryClick userId referenceAt e :=
    Lib.mem_stableSort.mp (List.mem_of_mem_drop h)
  obtain ⟨hevents, hclick⟩ := List.mem_filter.mp hmem
  exact ⟨hevents, of_decide_eq_true hclick⟩

/-- **The history does not see the future.**  Two inputs with the same clicks of the history, and
    with the same features before the reference time, have the same entries. -/
theorem buildHistorySnapshot_congr [BEq F] {events events' : List BehaviorEvent}
    {config : DatasetConfig} {snapshot snapshot' : HistorySnapshot F}
    (hnodup : (features.map ArticleFeatureRecord.id).Nodup)
    (hnodup' : (features'.map ArticleFeatureRecord.id).Nodup)
    (hclicks : (events.filter fun e => HistoryClick userId referenceAt e)
      = events'.filter fun e => HistoryClick userId referenceAt e)
    (hfeatures : ∀ t < referenceAt, SameFeatures t features features')
    (h : buildHistorySnapshot userId referenceAt events features config = .ok snapshot)
    (h' : buildHistorySnapshot userId referenceAt events' features' config = .ok snapshot') :
    snapshot.entries = snapshot'.entries := by
  rw [buildHistorySnapshot_eq_ok hnodup h, buildHistorySnapshot_eq_ok hnodup' h', ← hclicks]
  apply List.filterMap_congr
  intro e he
  obtain ⟨-, -, -, -, hbefore, -⟩ := mem_selected he
  rw [selectHistoryFeature_congr (hfeatures e.occurredAt hbefore)]

/-- Where an entry comes from: a click of the history, and a feature of its post that was there. -/
theorem mem_buildHistorySnapshot [BEq F] {events : List BehaviorEvent} {config : DatasetConfig}
    {snapshot : HistorySnapshot F} {entry : HistoryEntry F}
    (hnodup : (features.map ArticleFeatureRecord.id).Nodup)
    (h : buildHistorySnapshot userId referenceAt events features config = .ok snapshot)
    (hentry : entry ∈ snapshot.entries) :
    ∃ e ∈ events, HistoryClick userId referenceAt e ∧ ∃ f ∈ features, f.postId = e.postId
      ∧ AvailableAt e.occurredAt f ∧ entry = historyEntry e f := by
  rw [buildHistorySnapshot_eq_ok hnodup h, historyEntries, List.mem_filterMap] at hentry
  obtain ⟨e, he, hfeature⟩ := hentry
  obtain ⟨f, hf, rfl⟩ := Option.map_eq_some_iff.mp hfeature
  obtain ⟨hevents, hclick⟩ := mem_selected he
  obtain ⟨hmem, havailable⟩ := selectHistoryFeature_eq_some hf
  obtain ⟨hfeatures, hpost⟩ := List.mem_filter.mp hmem
  exact ⟨e, hevents, hclick, f, hfeatures, of_decide_eq_true hpost, havailable, rfl⟩

end Oecophylla.Dataset
