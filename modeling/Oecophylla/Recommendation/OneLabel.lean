import Oecophylla.Dataset.Leakage
import Oecophylla.Label.Declarative
import Oecophylla.Python.UuidText
import Oecophylla.Recommendation.Evaluate

namespace Oecophylla.Recommendation.Evaluate

open Label.Python (Active HasType ActionActive Admissible deriveLabel eventMapping)
open Lib (stableSort)
open Oecophylla.Python (Dict Timestamp Value)
open Oecophylla.Dataset (BehaviorEvent Database DatasetConfig EventRow Impression hourMicros
  linkedEvents rankingLabel rankingOutcome verifiedExposureAt)

/-!
# One label for the evaluator and the dataset

Both derive the target of an impression by the shared resolver, from events that each chooses
itself: the evaluator closes the window some hours after serving, the dataset builder as many hours
after the first exposure, and each has its own cut-off for the ingestion.  And the builder decodes the
metadata of an event, which `evaluate` cannot read: of an event that it has fetched it makes no record
(`evaluateTargets_eq_ok`), so that its targets are those of impressions nothing is known of.

* `Rewarded` — what a target of 1 asks for, by the declarative semantics of the labels;
* `trainingTarget_eq` — the resolver's target;
* `EvaluatorCounts`, `BuilderCounts` — the events of the two labels, as rows of the table;
* `evaluatorTarget_eq`, `builderLabel_eq` — the two targets;
* `recordTargets_agree_iff` — of records with their metadata decoded, the targets agree exactly when the
  two lists agree on `Rewarded`;
* `targets_agree_iff` — of the rows that `evaluate` fetches, exactly when the builder's list is not
  `Rewarded`;
* `clicked_after_the_evaluation` — a click that only the builder counts.
-/

/-! ### The target -/

/-- No strong negative is active, and a positive outcome is. -/
def Rewarded (qualifiedReadMs : Int) (l : List Dict) : Prop :=
  ¬ Active qualifiedReadMs true l .strongNegative
    ∧ (Active qualifiedReadMs true l .strongPositive ∨ Active qualifiedReadMs true l .positive
      ∨ Active qualifiedReadMs true l .qualifiedRead ∨ Active qualifiedReadMs true l .click)

instance (qualifiedReadMs : Int) (l : List Dict) : Decidable (Rewarded qualifiedReadMs l) :=
  inferInstanceAs (Decidable (_ ∧ (_ ∨ _ ∨ _ ∨ _)))

section Target

variable {qualifiedReadMs : Int}

/-- The order of the events does not matter. -/
theorem rewarded_of_perm {l l' : List Dict} (h : l.Perm l') :
    Rewarded qualifiedReadMs l ↔ Rewarded qualifiedReadMs l' := by
  have htype : ∀ ty, HasType l ty ↔ HasType l' ty := by
    intro ty
    unfold HasType
    simp only [h.mem_iff]
  have haction : ∀ a, ActionActive l a ↔ ActionActive l' a := fun a => Lib.lastTurnsOn_of_perm h
  unfold Rewarded Active
  simp only [htype, haction, h.mem_iff]

theorem not_rewarded_nil : ¬ Rewarded qualifiedReadMs [] := by
  simp [Rewarded, Active, HasType, ActionActive, Lib.LastTurnsOn]

/-- **The target of the resolver**, of events with ids of their own. -/
theorem trainingTarget_eq {events : List Label.Python.Event} {defaults : Dict} {anyView : Bool}
    {r : Label.LabelResult} (hpos : 0 < qualifiedReadMs)
    (h : deriveLabel events .v2 qualifiedReadMs true defaults anyView = .ok r)
    (hidentified : ∀ event ∈ events.map (eventMapping defaults), (Label.Python.eventId event).isSome)
    (hdistinct : ((events.map (eventMapping defaults)).map Label.Python.eventId).Nodup) :
    r.trainingTarget
      = some (if Rewarded qualifiedReadMs (events.map (eventMapping defaults)) then 1 else 0) := by
  have haccepted : Label.Python.acceptedEvents defaults events = events.map (eventMapping defaults) := by
    unfold Label.Python.acceptedEvents
    rw [Lib.collected_of_nodup hidentified hdistinct]
    simp [Lib.Collected.accepted]
  obtain ⟨-, htimestamps, hdurations, rfl⟩ := (Label.Python.deriveLabel_v2_eq_ok_iff hpos).mp h
  rw [haccepted] at htimestamps hdurations ⊢
  have hadmissible : Admissible qualifiedReadMs (events.map (eventMapping defaults)) :=
    ⟨hidentified, hdistinct, htimestamps, hdurations⟩
  have houtcome := fun s hn he =>
    Label.Python.outcome_evidence_iff hadmissible true (s := s) hn he
  show Label.trainingTarget (Label.semanticOf true _) = _
  rw [List.map_map]
  show Label.trainingTarget (Label.semanticOf true
    ((stableSort Label.Python.compareEvents (events.map (eventMapping defaults))).map
      (Label.Python.evidence qualifiedReadMs))) = _
  rw [Label.semanticOf_eq]
  simp only [houtcome _ (by decide : Label.Semantic.strongNegative ≠ .negative) (by decide),
    houtcome _ (by decide : Label.Semantic.strongPositive ≠ .negative) (by decide),
    houtcome _ (by decide : Label.Semantic.positive ≠ .negative) (by decide),
    houtcome _ (by decide : Label.Semantic.qualifiedRead ≠ .negative) (by decide),
    houtcome _ (by decide : Label.Semantic.click ≠ .negative) (by decide)]
  unfold Rewarded
  by_cases hnegative : Active qualifiedReadMs true (events.map (eventMapping defaults)) .strongNegative
  · simp [hnegative, Label.trainingTarget]
  -- the first positive outcome decides, and without one the label is negative
  by_cases hstrong : Active qualifiedReadMs true (events.map (eventMapping defaults)) .strongPositive
  · simp [hnegative, hstrong, Label.trainingTarget]
  by_cases hpositive : Active qualifiedReadMs true (events.map (eventMapping defaults)) .positive
  · simp [hnegative, hstrong, hpositive, Label.trainingTarget]
  by_cases hread : Active qualifiedReadMs true (events.map (eventMapping defaults)) .qualifiedRead
  · simp [hnegative, hstrong, hpositive, hread, Label.trainingTarget]
  by_cases hclick : Active qualifiedReadMs true (events.map (eventMapping defaults)) .click
  · simp [hnegative, hstrong, hpositive, hread, hclick, Label.trainingTarget]
  · simp [hnegative, hstrong, hpositive, hread, hclick, Label.trainingTarget, Label.plain]

theorem pos_of_deriveLabel {events : List Label.Python.Event} {version : Label.Python.LabelVersion}
    {closed anyView : Bool} {defaults : Dict} {r : Label.LabelResult}
    (h : deriveLabel events version qualifiedReadMs closed defaults anyView = .ok r) :
    0 < qualifiedReadMs := by
  by_contra hle
  unfold deriveLabel at h
  rw [if_pos (not_lt.mp hle)] at h
  cases h

end Target

/-! ### Rows of the table -/

/-- The row is a v2 event. -/
def IsV2 (row : EventRow) : Prop := row.metadata.get "event_version" = some (.str "v2")

/-- The record of a row with its metadata decoded, as `evaluate_records` takes it. -/
def decodedRecord (row : EventRow) : BehaviorRecord where
  impressionId := row.impressionId
  userId := row.userId
  postId := row.postId
  eventType := row.eventType
  occurredAt := row.occurredAt
  dwellMs := row.dwellMs
  metadata := some row.metadata
  eventId := some row.id
  ingestedAt := some row.ingestedAt
  eventVersion := some (((row.metadata.get "event_version").map Oecophylla.Python.str).getD "v1")

/-- What the resolver reads of a row. -/
def rowMapping (row : EventRow) : Dict := eventMapping [] (decodedRecord row).attributes

section Rows

variable {row : EventRow} {rows : List EventRow} {text : Value → String} {qualifiedReadMs : Int}

theorem eventVersion_decodedRecord (h : IsV2 row) :
    (decodedRecord row).eventVersion = some "v2" := by
  unfold decodedRecord
  rw [h]
  rfl

/-- The resolver reads the same of a v2 row on both sides. -/
theorem eventMapping_toEvent (h : IsV2 row) :
    eventMapping [] (row.toEvent text).record = rowMapping row := by
  have hcolumn : row.eventVersion text = some "v2" := by
    unfold EventRow.eventVersion
    rw [h]
  have hevent : (row.toEvent text).eventVersion = some "v2" := by
    unfold EventRow.toEvent
    rw [hcolumn]
  unfold rowMapping BehaviorEvent.record BehaviorRecord.attributes
  rw [hevent, eventVersion_decodedRecord h]
  -- the duration is left out when there is none
  cases hdwell : row.dwellMs with
  | none =>
    simp [EventRow.toEvent, decodedRecord, hdwell, eventMapping, Dict.get, Object.set, List.lookup_cons,
      Dataset.optional]
  | some ms =>
    simp [EventRow.toEvent, decodedRecord, hdwell, eventMapping, Dict.get, Object.set, List.lookup_cons,
      Dataset.optional]

theorem eventLabelVersion_of_isV2 (h : IsV2 row) :
    Label.Python.eventLabelVersion (decodedRecord row).attributes = .ok .v2 := by
  unfold BehaviorRecord.attributes
  rw [eventVersion_decodedRecord h]
  rfl

theorem eventId_rowMapping (row : EventRow) :
    Label.Python.eventId (rowMapping row) = some (Oecophylla.Python.uuidText row.id) := by
  have hid : (rowMapping row).get "event_id" = some (.uuid row.id) := by
    unfold rowMapping BehaviorRecord.attributes
    cases hdwell : row.dwellMs with
    | none => simp [decodedRecord, hdwell, eventMapping, Dict.get, Object.set, List.lookup_cons, Dataset.optional]
    | some ms => simp [decodedRecord, hdwell, eventMapping, Dict.get, Object.set, List.lookup_cons, Dataset.optional]
  unfold Label.Python.eventId
  rw [hid]
  rfl

/-- The rows have ids of their own. -/
theorem nodup_eventIds (hids : ∀ row ∈ rows, row.id < 2 ^ 128)
    (hnodup : (rows.map EventRow.id).Nodup) :
    ((rows.map rowMapping).map Label.Python.eventId).Nodup := by
  rw [List.map_map]
  refine List.Nodup.map_on ?_ (List.Nodup.of_map _ hnodup)
  intro a ha b hb heq
  rw [Function.comp_apply, Function.comp_apply, eventId_rowMapping, eventId_rowMapping,
    Option.some.injEq] at heq
  have hid := Oecophylla.Python.uuidText_injective (hids a ha) (hids b hb) heq
  exact List.inj_on_of_nodup_map hnodup ha hb hid

/-- **The target of a list of rows**, in any order. -/
theorem trainingTarget_of_rows {events : List Label.Python.Event} {anyView : Bool}
    {r : Label.LabelResult} (hpos : 0 < qualifiedReadMs)
    (hids : ∀ row ∈ rows, row.id < 2 ^ 128) (hnodup : (rows.map EventRow.id).Nodup)
    (hperm : (events.map (eventMapping [])).Perm (rows.map rowMapping))
    (h : deriveLabel events .v2 qualifiedReadMs true [] anyView = .ok r) :
    r.trainingTarget = some (if Rewarded qualifiedReadMs (rows.map rowMapping) then 1 else 0) := by
  have hidentified : ∀ event ∈ events.map (eventMapping []),
      (Label.Python.eventId event).isSome := by
    intro event hevent
    obtain ⟨row, -, rfl⟩ := List.mem_map.mp (hperm.mem_iff.mp hevent)
    rw [eventId_rowMapping]
    rfl
  have hdistinct : ((events.map (eventMapping [])).map Label.Python.eventId).Nodup :=
    (hperm.map _).nodup_iff.mpr (nodup_eventIds hids hnodup)
  rw [trainingTarget_eq hpos h hidentified hdistinct]
  simp only [rewarded_of_perm hperm]

end Rows

/-! ### The target of the evaluator -/

section Evaluator

variable {rows : List EventRow} {labelEvents : List BehaviorRecord} {qualifiedReadMs : Int}
  {version : Label.Python.LabelVersion} {target : Option Int}

/-- Without events the target is 0, in each version. -/
theorem trainingTarget_nil {anyView : Bool} {r : Label.LabelResult}
    (h : deriveLabel [] version qualifiedReadMs true [] anyView = .ok r) :
    r.trainingTarget = some 0 := by
  have hpos := pos_of_deriveLabel h
  obtain ⟨-, -, -, rfl⟩ := (Label.Python.deriveLabel_eq_ok_iff hpos).mp h
  cases version with
  | v1 => rfl
  | v2 => rfl

/-- **The evaluator.**  The target of v2 events. -/
theorem impressionTarget_eq (hversion : ∀ row ∈ rows, IsV2 row)
    (hids : ∀ row ∈ rows, row.id < 2 ^ 128) (hnodup : (rows.map EventRow.id).Nodup)
    (hperm : labelEvents.Perm (rows.map decodedRecord))
    (h : impressionTarget version qualifiedReadMs labelEvents = .ok target) :
    target = some (if Rewarded qualifiedReadMs (rows.map rowMapping) then 1 else 0) := by
  unfold impressionTarget at h
  simp only [Lib.except_bind_eq_ok, Lib.except_pure_eq_ok] at h
  obtain ⟨versions, hversions, -, -, label, hlabel, rfl⟩ := h
  have hmapping : ((labelEvents.map BehaviorRecord.attributes).map (eventMapping [])).Perm
      (rows.map rowMapping) := by
    have hrows : rows.map rowMapping
        = ((rows.map decodedRecord).map BehaviorRecord.attributes).map (eventMapping []) := by
      rw [List.map_map, List.map_map]
      rfl
    rw [hrows]
    exact (hperm.map _).map _
  cases labelEvents with
  | nil =>
    -- without events the configured version is used
    obtain rfl : rows = [] := List.map_eq_nil_iff.mp hperm.nil_eq.symm
    rw [List.map_nil, if_neg not_rewarded_nil]
    cases hderived : deriveLabel [] (versions.head?.getD version) qualifiedReadMs true []
        (decide (versions.head?.getD version = .v1)) with
    | error e =>
      rw [List.map_nil, hderived] at hlabel
      cases hlabel
    | ok r =>
      rw [List.map_nil, hderived] at hlabel
      obtain rfl := Except.ok.inj hlabel
      exact trainingTarget_nil hderived
  | cons event events =>
    obtain ⟨row, hrow, rfl⟩ := List.mem_map.mp (hperm.mem_iff.mp List.mem_cons_self)
    have hhead : versions.head? = some .v2 := by
      rw [List.mapM_cons, eventLabelVersion_of_isV2 (hversion row hrow)] at hversions
      simp only [Lib.except_bind_eq_ok, Lib.except_pure_eq_ok] at hversions
      obtain ⟨first, hfirst, rest, -, rfl⟩ := hversions
      rw [← Except.ok.inj hfirst]
      rfl
    rw [hhead] at hlabel
    cases hderived : deriveLabel (((decodedRecord row) :: events).map BehaviorRecord.attributes) .v2
        qualifiedReadMs true [] (decide (Label.Python.LabelVersion.v2 = .v1)) with
    | error e =>
      rw [Option.getD_some, hderived] at hlabel
      cases hlabel
    | ok r =>
      rw [Option.getD_some, hderived] at hlabel
      obtain rfl := Except.ok.inj hlabel
      exact trainingTarget_of_rows (pos_of_deriveLabel hderived) hids hnodup hmapping hderived

end Evaluator

/-! ### The events of the two labels -/

/-- The row is about the impression, and not before it was served. -/
def IsAbout (i : Impression) (row : EventRow) : Prop :=
  row.impressionId = some i.id ∧ row.userId = i.userId ∧ row.postId = i.postId
    ∧ i.servedAt ≤ row.occurredAt

/-- The evaluator counts the row: its window starts when the impression was served. -/
def EvaluatorCounts (window : Int) (asOf : Timestamp) (i : Impression) (row : EventRow) : Prop :=
  IsAbout i row ∧ row.occurredAt.micros ≤ i.servedAt.micros + window
    ∧ row.occurredAt ≤ asOf ∧ row.ingestedAt ≤ asOf

/-- The row shows that the impression was seen. -/
def ShowsExposure (extraction : Timestamp) (i : Impression) (row : EventRow) : Prop :=
  IsAbout i row ∧ row.ingestedAt ≤ extraction ∧ (row.eventType = "visible" ∨ row.eventType = "click")

/-- The builder counts the row: its window starts when the impression was first seen. -/
def BuilderCounts (window : Int) (extraction : Timestamp) (rows : List EventRow) (i : Impression)
    (row : EventRow) : Prop :=
  IsAbout i row ∧ row.ingestedAt ≤ extraction
    ∧ ∀ e ∈ rows, ShowsExposure extraction i e → row.occurredAt.micros ≤ e.occurredAt.micros + window

section Windows

variable (window : Int) (asOf extraction : Timestamp) (rows : List EventRow) (i : Impression)
  (row : EventRow)

instance : Decidable (IsAbout i row) := inferInstanceAs (Decidable (_ ∧ _ ∧ _ ∧ _))

instance : Decidable (EvaluatorCounts window asOf i row) :=
  inferInstanceAs (Decidable (_ ∧ _ ∧ _ ∧ _))

instance : Decidable (ShowsExposure extraction i row) := inferInstanceAs (Decidable (_ ∧ _ ∧ _))

instance : Decidable (BuilderCounts window extraction rows i row) :=
  inferInstanceAs (Decidable (_ ∧ _ ∧ ∀ e ∈ _, _ → _))

end Windows

/-- The events of the evaluator's label. -/
def evaluatorRows (window : Int) (asOf : Timestamp) (rows : List EventRow) (i : Impression) :
    List EventRow :=
  rows.filter fun row => EvaluatorCounts window asOf i row

/-- The events of the builder's label. -/
def builderRows (window : Int) (extraction : Timestamp) (rows : List EventRow) (i : Impression) :
    List EventRow :=
  rows.filter fun row => BuilderCounts window extraction rows i row

section Labels

variable {F : Type} {db : Database F} {i : Impression} {text : Value → String}

theorem isV2_of_counted {p : EventRow → Prop} [DecidablePred p] (hp : ∀ row, p row → IsAbout i row)
    (hversion : ∀ row ∈ db.events, row.impressionId = some i.id → IsV2 row) :
    ∀ row ∈ db.events.filter fun row => p row, IsV2 row := by
  intro row hrow
  obtain ⟨hmem, hcounted⟩ := List.mem_filter.mp hrow
  have habout := hp row (of_decide_eq_true hcounted)
  exact hversion row hmem habout.1

/-- The rows of a table that are counted have ids of their own. -/
theorem nodup_counted (p : EventRow → Bool) : ((db.events.filter p).map EventRow.id).Nodup :=
  db.events_nodup.sublist (List.filter_sublist.map _)

/-- **The evaluator.**  Its target of an impression, from the rows of the table. -/
theorem evaluatorTarget_eq {cutoff asOf : Timestamp} {impressionRows : List Impression}
    {eventRows : List EventRow} {version : Label.Python.LabelVersion}
    {qualifiedReadMs labelWindowHours : Int} {targets : List (ImpressionRecord × Option Int)}
    {target : Option Int}
    (hversion : ∀ row ∈ db.events, row.impressionId = some i.id → IsV2 row)
    (hids : ∀ row ∈ db.events, row.id < 2 ^ 128)
    (hfetched : Fetched db i.userId cutoff asOf impressionRows eventRows)
    (htargets : trainingTargets version qualifiedReadMs (impressionRows.map impressionRecord)
      (eventRows.map decodedRecord) cutoff labelWindowHours asOf = .ok targets)
    (htarget : (impressionRecord i, target) ∈ targets) :
    target = some (if Rewarded qualifiedReadMs
      ((evaluatorRows (labelWindowHours * hourMicros) asOf db.events i).map rowMapping) then 1 else 0) := by
  have hnodup : ((impressionRows.map impressionRecord).map ImpressionRecord.id).Nodup := by
    rw [List.map_map, (hfetched.impressions.map _).nodup_iff]
    exact db.impressions_nodup.sublist (List.filter_sublist.map _)
  obtain ⟨-, hlabel⟩ := trainingTargets_eq_ok htargets hnodup htarget
  refine impressionTarget_eq (isV2_of_counted (fun _ h => h.1) hversion)
    (fun row hrow => hids row (List.mem_of_mem_filter hrow)) (nodup_counted _) ?_ hlabel
  refine ((hfetched.events.map decodedRecord).filter _).trans (List.Perm.of_eq ?_)
  -- the query drops only rows that the loop would drop
  rw [List.filter_map, List.filter_filter]
  congr 1
  apply List.filter_congr
  intro row hrow
  rw [Function.comp_apply, ← Bool.decide_and, decide_eq_decide]
  constructor
  · rintro ⟨⟨himpression, huser, hpost, hserved, hwindow, hoccurred, hingested⟩, -⟩
    exact ⟨⟨himpression, huser, hpost, hserved⟩, hwindow, hoccurred, hingested⟩
  · rintro ⟨⟨himpression, huser, hpost, hserved⟩, hwindow, hoccurred, hingested⟩
    exact ⟨⟨himpression, huser, hpost, hserved, hwindow, hoccurred, hingested⟩, huser, hoccurred,
      hingested⟩

/-- The linked events are rows of the table. -/
theorem linkedEvents_toEvent {config : DatasetConfig} {rows : List EventRow} :
    linkedEvents config (rows.map (EventRow.toEvent text)) i = (rows.filter fun row =>
      (row.impressionId = some i.id ∧ row.ingestedAt ≤ config.extractionTime)
        ∧ row.userId = i.userId ∧ row.postId = i.postId).map (EventRow.toEvent text) := by
  have hingested : ∀ row : EventRow, Dataset.IngestedBy config.extractionTime (row.toEvent text)
      ↔ row.ingestedAt ≤ config.extractionTime :=
    fun row => ⟨fun h => h _ rfl, fun h t ht => Option.some.inj ht ▸ h⟩
  unfold linkedEvents
  rw [List.filter_map, List.filter_map, List.filter_filter]
  congr 1
  apply List.filter_congr
  intro row _
  simp only [Function.comp_apply, ← Bool.decide_and, decide_eq_decide, hingested]
  exact And.comm

/-- The end of the builder's window, by the rows that show the exposure. -/
theorem le_labelWindowEnd_iff {config : DatasetConfig} {visibleAt : Timestamp} {t window : Int}
    (hvisible : verifiedExposureAt i (linkedEvents config (db.events.map (EventRow.toEvent text)) i)
      = some visibleAt) :
    t ≤ visibleAt.micros + window ↔ ∀ e ∈ db.events,
      ShowsExposure config.extractionTime i e → t ≤ e.occurredAt.micros + window := by
  rw [linkedEvents_toEvent] at hvisible
  unfold verifiedExposureAt at hvisible
  constructor
  · rintro hle e he ⟨⟨himpression, huser, hpost, hserved⟩, hingested, htype⟩
    have hlinked : e ∈ db.events.filter fun row =>
        (row.impressionId = some i.id ∧ row.ingestedAt ≤ config.extractionTime)
          ∧ row.userId = i.userId ∧ row.postId = i.postId :=
      List.mem_filter.mpr ⟨he, decide_eq_true (And.intro ⟨himpression, hingested⟩ ⟨huser, hpost⟩)⟩
    have hexposed : decide ((e.eventType = "visible" ∨ e.eventType = "click")
        ∧ i.servedAt ≤ e.occurredAt) = true := decide_eq_true ⟨htype, hserved⟩
    -- the first exposure is not after this one
    have hfirst := @Lib.firstLeast_le _ _ _ (inferInstanceAs (Std.TransCmp
      (Lib.compareBy compare Timestamp.micros))) _ e.occurredAt hvisible
      (List.mem_map_of_mem (List.mem_filter.mpr ⟨List.mem_map_of_mem hlinked, hexposed⟩))
    have hle' : visibleAt.micros ≤ e.occurredAt.micros := Std.isLE_compare.mp hfirst
    omega
  · intro hall
    obtain ⟨event, hevent, rfl⟩ := List.mem_map.mp (Lib.firstLeast_mem hvisible)
    obtain ⟨hlinked, hexposure⟩ := List.mem_filter.mp hevent
    obtain ⟨htype, hserved⟩ := of_decide_eq_true hexposure
    obtain ⟨row, hrow, rfl⟩ := List.mem_map.mp hlinked
    obtain ⟨hmem, habout⟩ := List.mem_filter.mp hrow
    obtain ⟨⟨himpression, hingested⟩, huser, hpost⟩ := of_decide_eq_true habout
    exact hall row hmem ⟨⟨himpression, huser, hpost, hserved⟩, hingested, htype⟩

/-- The events of the builder's label are the rows that it counts. -/
theorem labelEvents_eq {config : DatasetConfig} {visibleAt : Timestamp} {window : Int}
    (hvisible : verifiedExposureAt i (linkedEvents config (db.events.map (EventRow.toEvent text)) i)
      = some visibleAt) :
    ((linkedEvents config (db.events.map (EventRow.toEvent text)) i).filter fun e =>
      i.servedAt ≤ e.occurredAt ∧ e.occurredAt.micros ≤ visibleAt.micros + window)
      = (builderRows window config.extractionTime db.events i).map (EventRow.toEvent text) := by
  unfold builderRows
  rw [linkedEvents_toEvent, List.filter_map, List.filter_filter]
  congr 1
  apply List.filter_congr
  intro row _
  simp only [Function.comp_apply, ← Bool.decide_and, decide_eq_decide]
  have hend := @le_labelWindowEnd_iff _ _ _ _ _ _ row.occurredAt.micros window hvisible
  constructor
  · rintro ⟨⟨hserved, hwindow⟩, ⟨himpression, hingested⟩, huser, hpost⟩
    exact ⟨⟨himpression, huser, hpost, hserved⟩, hingested, hend.mp hwindow⟩
  · rintro ⟨⟨himpression, huser, hpost, hserved⟩, hingested, hwindow⟩
    exact ⟨⟨hserved, hend.mpr hwindow⟩, ⟨himpression, hingested⟩, huser, hpost⟩

/-- **The builder.**  Its label of an impression, from the table. -/
theorem builderLabel_eq [BEq F] {rt : Dataset.Runtime F} {config : DatasetConfig}
    {features : List (Dataset.ArticleFeatureRecord F)} {row : Dataset.RankingDatasetRow F}
    (hversion : ∀ row ∈ db.events, row.impressionId = some i.id → IsV2 row)
    (hids : ∀ row ∈ db.events, row.id < 2 ^ 128)
    (h : rankingOutcome rt config (db.events.map (EventRow.toEvent text)) features i = .ok (.row row)) :
    row.utilityLabel = if Rewarded config.qualifiedReadMs
      ((builderRows (config.labelWindowHours * hourMicros) config.extractionTime db.events i).map
        rowMapping) then 1 else 0 := by
  obtain ⟨visibleAt, labelWindowEnd, label, hvisible, hend, -, hlabel, hmade⟩ :=
    Dataset.rankingOutcome_eq_row h
  obtain ⟨-, -, -, -, -, -, -, -, -, -, -, rfl⟩ := Dataset.rankingRow_eq_ok hmade
  obtain rfl := Timestamp.plus_eq_some hend
  show label.utilityLabel = _
  unfold rankingLabel at hlabel
  rw [labelEvents_eq hvisible] at hlabel
  simp only [Lib.except_bind_eq_ok] at hlabel
  obtain ⟨-, -, -, -, derived, hderived, hlabel⟩ := hlabel
  generalize hrows : builderRows (config.labelWindowHours * hourMicros) config.extractionTime db.events i
    = rows at hderived hlabel ⊢
  have hv2 : ∀ row ∈ rows, IsV2 row := by
    rw [← hrows]
    exact isV2_of_counted (fun _ h => h.1) hversion
  have hmapping : ((rows.map (EventRow.toEvent text)).map BehaviorEvent.record).map (eventMapping [])
      = rows.map rowMapping := by
    rw [List.map_map, List.map_map]
    exact List.map_congr_left fun row hrow => eventMapping_toEvent (hv2 row hrow)
  have hrowIds : ∀ row ∈ rows, row.id < 2 ^ 128 := by
    intro row hrow
    rw [← hrows] at hrow
    exact hids row (List.mem_of_mem_filter hrow)
  have hnodup : (rows.map EventRow.id).Nodup := hrows ▸ nodup_counted _
  cases hderive : deriveLabel ((rows.map (EventRow.toEvent text)).map BehaviorEvent.record) .v2
      config.qualifiedReadMs true [] false with
  | error e =>
    rw [hderive] at hderived
    cases hderived
  | ok r =>
    rw [hderive] at hderived
    obtain rfl := Except.ok.inj hderived
    have htarget := trainingTarget_of_rows config.qualified_read_positive hrowIds hnodup
      (List.Perm.of_eq hmapping) hderive
    simp only [htarget, Lib.except_pure_eq_ok] at hlabel
    rw [hlabel]

end Labels

/-! ### The two targets -/

section Targets

variable {F : Type} [BEq F] {rt : Dataset.Runtime F} {db : Database F} {text : Value → String}
  {config : DatasetConfig} {i : Impression} {cutoff asOf : Timestamp}
  {impressionRows : List Impression} {eventRows : List EventRow}
  {version : Label.Python.LabelVersion} {targets : List (ImpressionRecord × Option Int)}
  {target : Option Int} {result : Dataset.RankingBuildResult F} {row : Dataset.RankingDatasetRow F}

/-- **Two windows.**  An impression with v2 events that both the evaluator, of records with their
    metadata decoded, and the builder include has one target exactly when the events that each of them
    counts agree on `Rewarded`. -/
theorem recordTargets_agree_iff (hi : i ∈ Dataset.windowImpressions config db.impressions)
    (hversion : ∀ row ∈ db.events, row.impressionId = some i.id → IsV2 row)
    (hids : ∀ row ∈ db.events, row.id < 2 ^ 128)
    (hfetched : Fetched db i.userId cutoff asOf impressionRows eventRows)
    (htargets : trainingTargets version config.qualifiedReadMs (impressionRows.map impressionRecord)
      (eventRows.map decodedRecord) cutoff config.labelWindowHours asOf = .ok targets)
    (htarget : (impressionRecord i, target) ∈ targets)
    (hbuild : Dataset.buildRankingSamplesV2 rt db.impressions (db.events.map (EventRow.toEvent text))
      db.features config = .ok result)
    (hrow : row ∈ result.rows) (hof : Dataset.RowOf i row) :
    target = some row.utilityLabel ↔
      (Rewarded config.qualifiedReadMs ((evaluatorRows (config.labelWindowHours * hourMicros) asOf
          db.events i).map rowMapping)
        ↔ Rewarded config.qualifiedReadMs ((builderRows (config.labelWindowHours * hourMicros)
          config.extractionTime db.events i).map rowMapping)) := by
  have hevents : ((db.events.map (EventRow.toEvent text)).map BehaviorEvent.id).Nodup := by
    rw [List.map_map]
    exact db.events_nodup
  obtain ⟨source, hround, heq⟩ := Dataset.exists_of_rowOf db.impressions_nodup hevents
    db.features_nodup hbuild hi hrow hof
  have hlabel : row.utilityLabel = source.utilityLabel := by rw [heq]
  rw [evaluatorTarget_eq hversion hids hfetched htargets htarget, hlabel,
    builderLabel_eq hversion hids hround]
  split_ifs with hevaluator hbuilder hbuilder
  · simp [hevaluator, hbuilder]
  · simp [hevaluator, hbuilder]
  · simp [hevaluator, hbuilder]
  · simp [hevaluator, hbuilder]

/-- **One label.**  For an impression with v2 events that both `evaluate` and the builder include: no
    event of its user was known when it was evaluated, and it has one target exactly when the events
    that the builder counts are not `Rewarded`. -/
theorem targets_agree_iff {jsonText : Dict → String} (htext : ∀ metadata, jsonText metadata ≠ "")
    (hi : i ∈ Dataset.windowImpressions config db.impressions)
    (hversion : ∀ row ∈ db.events, row.impressionId = some i.id → IsV2 row)
    (hids : ∀ row ∈ db.events, row.id < 2 ^ 128)
    (hfetched : Fetched db i.userId cutoff asOf impressionRows eventRows)
    (htargets : evaluateTargets jsonText version config.qualifiedReadMs impressionRows eventRows cutoff
      config.labelWindowHours asOf = .ok targets)
    (htarget : (impressionRecord i, target) ∈ targets)
    (hbuild : Dataset.buildRankingSamplesV2 rt db.impressions (db.events.map (EventRow.toEvent text))
      db.features config = .ok result)
    (hrow : row ∈ result.rows) (hof : Dataset.RowOf i row) :
    (∀ row ∈ db.events, row.userId = i.userId → row.occurredAt ≤ asOf → ¬ row.ingestedAt ≤ asOf)
      ∧ (target = some row.utilityLabel ↔
        ¬ Rewarded config.qualifiedReadMs ((builderRows (config.labelWindowHours * hourMicros)
          config.extractionTime db.events i).map rowMapping)) := by
  obtain ⟨rfl, htargets⟩ := evaluateTargets_eq_ok htext htargets
  have hunknown : ∀ row ∈ db.events, row.userId = i.userId → row.occurredAt ≤ asOf →
      ¬ row.ingestedAt ≤ asOf := by
    intro row hrow huser hoccurred hingested
    exact List.not_mem_nil (hfetched.events.mem_iff.mpr
      (List.mem_filter.mpr ⟨hrow, decide_eq_true ⟨huser, hoccurred, hingested⟩⟩))
  have hnone : evaluatorRows (config.labelWindowHours * hourMicros) asOf db.events i = [] := by
    refine List.filter_eq_nil_iff.mpr fun row hrow hcounts => ?_
    obtain ⟨⟨-, huser, -⟩, -, hoccurred, hingested⟩ := of_decide_eq_true hcounts
    exact hunknown row hrow huser hoccurred hingested
  refine ⟨hunknown, (recordTargets_agree_iff hi hversion hids hfetched htargets htarget hbuild hrow
    hof).trans ?_⟩
  rw [hnone, List.map_nil]
  exact iff_iff_eq.trans (by simp [not_rewarded_nil])

end Targets

/-! ### An example -/

/-- A time of January 2026, UTC. -/
private def january (day hour minute : Nat) : Timestamp :=
  ⟨⟨2026, 1, day, hour, minute, 0, 0, some 0⟩, rfl⟩

/-- The hashes of the ids of the example. -/
private def hashes : List (String × String) :=
  [("s:00000000-0000-0000-0000-0000000c73b3",
      "33871d5268e3e90302938f34796b685466049032093d04169693264154952932"),
    ("s:00000000-0000-0000-0000-00000014f690",
      "729649f815b946040c078496be17437024f86624863989568231016045795b36"),
    ("s:00000000-0000-0000-0000-00000001eb5f",
      "b91590a4135f24520942629d947634780135650b8143d7b5990e061286029416"),
    ("s:00000000-0000-0000-0000-0000000387fa",
      "b0249872593b09c1258578545004728c3d44871f1214884641239990073e967e")]

/-- The texts of the example are in lower case, and its embeddings have integer entries. -/
private def integers : Dataset.Runtime Int where
  sha256 text := (hashes.lookup text).getD ""
  hmacSha256 _ _ := "4317185655386de36f43c9167140882006f679325f213961947e344037687342"
  lower s := s
  islower _ := true
  isfinite _ := true
  unitNorm v := (v.map fun x => x * x).sum == 1

/-- The label window is a day. -/
private def settings : DatasetConfig :=
  .ofTimes (january 10 0 0) (january 11 0 0) (january 20 0 0) (by decide) (by decide)

/-- What the request was ranked with. -/
private def snapshotOfRequest : Dict :=
  [("schema_version", .str "rank-features-v1"), ("topic_relevance", .none), ("freshness", .none),
    ("safety_score", .none), ("candidate_source", .str "follow"), ("is_followed_author", .none),
    ("author_affinity", .none), ("heuristic_score", .none), ("ml_score", .none)]

/-- An impression of user 5 on the 10th at six. -/
private def served (id postId : Nat) (position : Int) : Impression :=
  ⟨id, 18651, 5, postId, position, "ranked", "m", snapshotOfRequest, january 10 6 0⟩

private def happened (id impressionId postId : Nat) (eventType : String) (time : Timestamp) : EventRow :=
  ⟨id, some impressionId, 5, postId, eventType, none, [("event_version", .str "v2")], time, time⟩

private def embedded (id postId : Nat) : Dataset.ArticleFeatureRecord Int :=
  ⟨id, postId, Dataset.pinnedEncoderVersion,
    "66785409653e72800245bb8789022996744d8421205c30633d6487784782a492", [1, 0], january 1 0 0,
    january 1 0 0⟩

/-- Both posts of a request are seen on the 12th, and the first one is clicked. -/
private def seenLater : Database Int where
  impressions := [served 816051 125791 0, served 1373840 231418 1]
  events := [happened 101 816051 125791 "visible" (january 12 7 0),
    happened 102 1373840 231418 "visible" (january 12 7 0),
    happened 103 816051 125791 "click" (january 12 8 0)]
  features := [embedded 201 125791, embedded 202 231418]
  impressions_nodup := by decide
  events_nodup := by simp [happened]
  features_nodup := by decide

/-- The post that is clicked, and the other one. -/
private def first : Impression := served 816051 125791 0

private def second : Impression := served 1373840 231418 1

private def dataset : Except Dataset.Raised (Dataset.RankingBuildResult Int) :=
  Dataset.buildRankingSamplesV2 integers seenLater.impressions
    (seenLater.events.map (EventRow.toEvent Oecophylla.Python.str)) seenLater.features settings

/-- The metadata of these events as a text. -/
private def jsonText (_ : Dict) : String := "\x7b\"event_version\": \"v2\"\x7d"

/-- The evaluation in the first minute of the 12th fetches no event. -/
private theorem fetched : Fetched seenLater 5 (january 9 0 0) (january 12 0 0) seenLater.impressions []
    where
  impressions := List.Perm.of_eq rfl
  events := by
    refine List.Perm.of_eq (List.filter_eq_nil_iff.mpr fun row hrow h => ?_).symm
    have hlate : ∀ row ∈ seenLater.events, ¬ row.occurredAt ≤ january 12 0 0 := by decide
    exact hlate row hrow (of_decide_eq_true h).2.1
  ordered := .nil

private theorem targets_eq :
    evaluateTargets jsonText .v2 settings.qualifiedReadMs seenLater.impressions [] (january 9 0 0)
        settings.labelWindowHours (january 12 0 0)
      = .ok [(impressionRecord first, some 0), (impressionRecord second, some 0)] :=
  rfl

private theorem isV2_seenLater : ∀ row ∈ seenLater.events, IsV2 row := by
  intro row hrow
  simp only [seenLater, List.mem_cons, List.not_mem_nil, or_false] at hrow
  rcases hrow with rfl | rfl | rfl
  · rfl
  · rfl
  · rfl

/-- The dataset has a row of the post with the label. -/
private def Labelled (i : Impression) (label : Int) : Prop :=
  (dataset.toOption.any fun result => result.rows.any fun row =>
    decide (row.auditRequestIdentity = Dataset.canonicalRequestIdentity i
      ∧ row.position = i.position ∧ row.utilityLabel = label)) = true

private theorem labelled : Labelled first 1 ∧ Labelled second 0 := by
  unfold Labelled
  constructor
  · decide +kernel
  · decide +kernel

private theorem exists_row {i : Impression} {label : Int} (h : Labelled i label) :
    ∃ result row, dataset = .ok result ∧ row ∈ result.rows ∧ Dataset.RowOf i row
      ∧ row.utilityLabel = label := by
  unfold Labelled at h
  cases hbuilt : dataset with
  | error e => simp [hbuilt, Except.toOption] at h
  | ok result =>
    rw [hbuilt] at h
    obtain ⟨row, hrow, hfound⟩ := List.any_eq_true.mp h
    obtain ⟨hidentity, hposition, hlabel⟩ := of_decide_eq_true hfound
    exact ⟨result, row, rfl, hrow, ⟨hidentity, hposition⟩, hlabel⟩

/-- Of the post that is not clicked, both targets are 0. -/
theorem targets_agree_second : ∃ result row, dataset = .ok result ∧ row ∈ result.rows
    ∧ row.utilityLabel = 0 ∧ (some 0 = some row.utilityLabel ↔
      ¬ Rewarded settings.qualifiedReadMs ((builderRows (settings.labelWindowHours * hourMicros)
        settings.extractionTime seenLater.events second).map rowMapping)) := by
  obtain ⟨result, row, hbuilt, hrow, hof, hlabel⟩ := exists_row labelled.2
  refine ⟨result, row, hbuilt, hrow, hlabel, ?_⟩
  have htext : ∀ metadata, jsonText metadata ≠ "" := by
    intro metadata
    unfold jsonText
    decide
  have hwindow : second ∈ Dataset.windowImpressions settings seenLater.impressions :=
    List.mem_filter.mpr ⟨List.mem_cons_of_mem _ List.mem_cons_self, by decide⟩
  exact (targets_agree_iff htext hwindow (fun row hmem _ => isV2_seenLater row hmem) (by decide +kernel)
    fetched targets_eq (List.mem_cons_of_mem _ List.mem_cons_self) hbuilt hrow hof).2

/-- **Counterexample.**  The impression is evaluated before it is seen and clicked, and the builder has
    the click: the evaluator's target is 0, the builder's 1. -/
theorem clicked_after_the_evaluation : ∃ targets result row,
    Fetched seenLater first.userId (january 9 0 0) (january 12 0 0) seenLater.impressions []
      ∧ evaluateTargets jsonText .v2 settings.qualifiedReadMs seenLater.impressions [] (january 9 0 0)
        settings.labelWindowHours (january 12 0 0) = .ok targets
      ∧ (∀ row ∈ seenLater.events, IsV2 row)
      ∧ dataset = .ok result ∧ row ∈ result.rows ∧ Dataset.RowOf first row
      ∧ (impressionRecord first, some 0) ∈ targets ∧ row.utilityLabel = 1 := by
  obtain ⟨result, row, hbuilt, hrow, hof, hlabel⟩ := exists_row labelled.1
  exact ⟨_, result, row, fetched, targets_eq, isV2_seenLater, hbuilt, hrow, hof, List.mem_cons_self,
    hlabel⟩

end Oecophylla.Recommendation.Evaluate
