import Oecophylla.Dataset.Export
import Oecophylla.Dataset.Ranking

namespace Oecophylla.Recommendation.Evaluate

open Lib (OrderedDict stableSort)
open Oecophylla.Python (Timestamp)
open Oecophylla.Dataset (Database EventRow Impression)

/-!
# The evaluator of the recommendation API — `recommendation_api/app/evaluate.py`

* `ImpressionRecord`, `BehaviorRecord` — what `evaluate_records` is given;
* `buildTemporalSplit` — the impressions whose label window is over, and the events of their labels;
* `impressionTarget` — the training target of an impression;
* `trainingTargets` — the targets that `evaluate_records` computes its metrics from;
* `Fetched` — the rows of the two queries of `evaluate`;
* `behaviorRecord`, `evaluateTargets` — its records, and the targets that come of them;
* `labelEvents_of_buildTemporalSplit`, `trainingTargets_eq_ok` — which events a target is made of;
* `evaluateTargets_eq_ok` — where `evaluate` has targets at all.

The column `metadata` is a `jsonb`.  Its value comes from the driver as a text, for the pool of `DB` sets
no codec (`ai_pipeline/schemas.py` says so where it decodes the same column), and `evaluate` makes a
`dict` of that text as it stands.  So the record of an event is never made: `dict` raises.

The metrics are not modelled.
-/

/-- `ImpressionRecord`, without what only the metrics read. -/
structure ImpressionRecord where
  id : Nat
  requestId : Nat
  userId : Nat
  postId : Nat
  position : Int
  servedAt : Timestamp

/-- `BehaviorRecord`. -/
structure BehaviorRecord where
  impressionId : Option Nat
  userId : Nat
  postId : Nat
  eventType : String
  occurredAt : Timestamp
  dwellMs : Option Int
  metadata : Option Python.Dict
  eventId : Option Nat
  ingestedAt : Option Timestamp
  eventVersion : Option String

/-- The attributes of a record, as the label resolver reads them. -/
def BehaviorRecord.attributes (e : BehaviorRecord) : Label.Python.Event :=
  .record [("impression_id", Dataset.optional .uuid e.impressionId), ("user_id", .uuid e.userId),
    ("post_id", .uuid e.postId), ("event_type", .str e.eventType),
    ("occurred_at", .datetime e.occurredAt.datetime),
    ("dwell_ms", Dataset.optional .int e.dwellMs), ("metadata", Dataset.optional .dict e.metadata),
    ("event_id", Dataset.optional .uuid e.eventId),
    ("ingested_at", Dataset.optional (fun t : Timestamp => .datetime t.datetime) e.ingestedAt),
    ("event_version", Dataset.optional .str e.eventVersion)]

/-- What the evaluator raises. -/
inductive Raised where
  | valueError (text : String)
  | overflow
  | label (raised : Label.Python.Raised)
  deriving DecidableEq, Repr

/-- `if bad: raise ValueError(text)`. -/
def raiseIf (bad : Prop) [Decidable bad] (text : String) : Except Raised Unit :=
  if bad then .error (.valueError text) else .ok ()

/-! ### The split -/

/-- `TemporalSplit`. -/
structure TemporalSplit where
  trainingEvents : List BehaviorRecord
  validationImpressions : List ImpressionRecord
  labelEventsByImpression : OrderedDict Nat (List BehaviorRecord)

/-- `_aware_utc(value, name)`, of a value with a timezone. -/
def awareUtc (t : Timestamp) : Except Raised Int :=
  match t.datetime.instant with
  | some micros => .ok micros
  | none => .error .overflow

/-- The order of the impressions. -/
def compareImpressions : ImpressionRecord → ImpressionRecord → Ordering :=
  Lib.compareBy (Lib.compareTriple compare compare compare) fun i =>
    (i.userId, i.requestId, i.position)

/-- Whether an event is one of the training events. -/
def isTraining (cutoff : Int) (event : BehaviorRecord) : Except Raised Bool := do
  let occurredAt ← awareUtc event.occurredAt
  if cutoff ≤ occurredAt then return false
  else
    match event.ingestedAt with
    | none => return true
    | some t => return decide ((← awareUtc t) < cutoff)

/-- Whether the label window of an impression is over. -/
def isFinalized (cutoff finalizedBefore : Int) (i : ImpressionRecord) : Except Raised Bool := do
  let servedAt ← awareUtc i.servedAt
  return decide (cutoff ≤ servedAt ∧ servedAt ≤ finalizedBefore)

/-- `ingested_at` in the loop over the events. -/
def ingestedUtc (event : BehaviorRecord) (occurredAt : Int) : Except Raised Int :=
  match event.ingestedAt with
  | some t => awareUtc t
  | none => .ok occurredAt

/-- One round of the loop over the events. -/
def addLabelEvent (byId : OrderedDict Nat ImpressionRecord) (window evaluationTime : Int)
    (labels : OrderedDict Nat (List BehaviorRecord)) (event : BehaviorRecord) :
    Except Raised (OrderedDict Nat (List BehaviorRecord)) :=
  match event.impressionId.bind byId.get with
  | none => .ok labels
  | some impression => do
    let occurredAt ← awareUtc event.occurredAt
    let ingestedAt ← ingestedUtc event occurredAt
    let servedAt ← awareUtc impression.servedAt
    if event.userId = impression.userId ∧ event.postId = impression.postId
        ∧ servedAt ≤ occurredAt ∧ occurredAt ≤ servedAt + window
        ∧ occurredAt ≤ evaluationTime ∧ ingestedAt ≤ evaluationTime then
      return labels.set impression.id ((labels.get impression.id).getD [] ++ [event])
    else return labels

/-- `build_temporal_split(impressions, events, …)`. -/
def buildTemporalSplit (impressions : List ImpressionRecord) (events : List BehaviorRecord)
    (cutoffAt : Timestamp) (labelWindowHours : Int) (asOf : Timestamp) :
    Except Raised TemporalSplit := do
  raiseIf (labelWindowHours ≤ 0) "label_window_hours must be positive"
  let cutoff ← awareUtc cutoffAt
  let evaluationTime ← awareUtc asOf
  raiseIf (evaluationTime ≤ cutoff) "cutoff_at must be before as_of"
  let window := labelWindowHours * Dataset.hourMicros
  -- `timedelta` has at most 999999999 days, and a `datetime` is not before the year 1
  if 999999999 < labelWindowHours / 24 ∨ evaluationTime - window < 0 then .error .overflow
  else
    let trainingEvents ← events.filterM (isTraining cutoff)
    let finalized ← impressions.filterM (isFinalized cutoff (evaluationTime - window))
    let validationImpressions := stableSort compareImpressions finalized
    let byId := OrderedDict.update [] (validationImpressions.map fun i => (i.id, i))
    let labelEventsByImpression ← events.foldlM (addLabelEvent byId window evaluationTime) []
    return { trainingEvents, validationImpressions, labelEventsByImpression }

/-! ### The targets -/

/-- The training target of an impression, from the events of its label. -/
def impressionTarget (recommendationLabelVersion : Label.Python.LabelVersion) (qualifiedReadMs : Int)
    (labelEvents : List BehaviorRecord) : Except Raised (Option Int) := do
  let persistedVersions ← labelEvents.mapM fun event =>
    (Label.Python.eventLabelVersion event.attributes).mapError .label
  raiseIf (∃ a ∈ persistedVersions, ∃ b ∈ persistedVersions, a ≠ b)
    "mixed persisted label versions within one impression"
  let persistedVersion := persistedVersions.head?.getD recommendationLabelVersion
  let label ← (Label.Python.deriveLabel (labelEvents.map BehaviorRecord.attributes) persistedVersion
    qualifiedReadMs true [] (decide (persistedVersion = .v1))).mapError .label
  return label.trainingTarget

/-- The events of the label of an impression. -/
def TemporalSplit.labelEvents (split : TemporalSplit) (i : ImpressionRecord) : List BehaviorRecord :=
  (split.labelEventsByImpression.get i.id).getD []

/-- The targets that `evaluate_records` computes its metrics from. -/
def trainingTargets (recommendationLabelVersion : Label.Python.LabelVersion) (qualifiedReadMs : Int)
    (impressions : List ImpressionRecord) (events : List BehaviorRecord) (cutoffAt : Timestamp)
    (labelWindowHours : Int) (asOf : Timestamp) :
    Except Raised (List (ImpressionRecord × Option Int)) := do
  let split ← buildTemporalSplit impressions events cutoffAt labelWindowHours asOf
  split.validationImpressions.mapM fun i => do
    return (i, ← impressionTarget recommendationLabelVersion qualifiedReadMs (split.labelEvents i))

/-! ### The queries -/

/-- The record of a row of `recommendation_impressions`. -/
def impressionRecord (i : Impression) : ImpressionRecord :=
  ⟨i.id, i.requestId, i.userId, i.postId, i.position, i.servedAt⟩

/-- `dict(text)`: the elements of a text are texts of one character, and no pairs. -/
def dictOfText (text : String) : Except Raised Python.Dict :=
  if text = "" then .ok []
  else .error (.valueError "dictionary update sequence element #0 has length 1; 2 is required")

/-- The record of a row of `behavior_events`, whose metadata come as `jsonText` writes them. -/
def behaviorRecord (jsonText : Python.Dict → String) (row : EventRow) : Except Raised BehaviorRecord := do
  let metadata ← dictOfText (jsonText row.metadata)
  return {
    impressionId := row.impressionId
    userId := row.userId
    postId := row.postId
    eventType := row.eventType
    occurredAt := row.occurredAt
    dwellMs := row.dwellMs
    metadata := some metadata
    eventId := some row.id
    ingestedAt := some row.ingestedAt
    -- only the empty text gets here, and `{}` has no version
    eventVersion := some "v1" }

section Queries

variable {F : Type}

/-- What the two queries return for a user: the order of rows that tie is not said. -/
structure Fetched (db : Database F) (userId : Nat) (cutoff asOf : Timestamp)
    (impressionRows : List Impression) (eventRows : List EventRow) : Prop where
  impressions : impressionRows.Perm (db.impressions.filter fun i =>
    i.userId = userId ∧ cutoff ≤ i.servedAt ∧ i.servedAt ≤ asOf)
  events : eventRows.Perm (db.events.filter fun row =>
    row.userId = userId ∧ row.occurredAt ≤ asOf ∧ row.ingestedAt ≤ asOf)
  ordered : eventRows.Pairwise fun a b => a.occurredAt ≤ b.occurredAt

end Queries

/-- `evaluate`, from the rows to the targets. -/
def evaluateTargets (jsonText : Python.Dict → String)
    (recommendationLabelVersion : Label.Python.LabelVersion) (qualifiedReadMs : Int)
    (impressionRows : List Impression) (eventRows : List EventRow) (cutoffAt : Timestamp)
    (labelWindowHours : Int) (asOf : Timestamp) :
    Except Raised (List (ImpressionRecord × Option Int)) := do
  let events ← eventRows.mapM (behaviorRecord jsonText)
  trainingTargets recommendationLabelVersion qualifiedReadMs (impressionRows.map impressionRecord) events
    cutoffAt labelWindowHours asOf

/-! ### Which events a target is made of -/

section Spec

variable {impressions : List ImpressionRecord} {events : List BehaviorRecord}
  {cutoffAt asOf : Timestamp} {labelWindowHours : Int}

theorem awareUtc_eq_ok {t : Timestamp} {micros : Int} (h : awareUtc t = .ok micros) :
    micros = t.micros := by
  unfold awareUtc at h
  split at h
  · next m hm =>
    obtain rfl := Except.ok.inj h
    unfold Python.Datetime.instant at hm
    dsimp only at hm
    split at hm
    · obtain rfl := Option.some.inj hm
      unfold Timestamp.micros Python.Datetime.micros Python.Datetime.localMicros
      rfl
    · cases hm
  · cases h

theorem ingestedUtc_eq_ok {event : BehaviorRecord} {micros : Int}
    (h : ingestedUtc event event.occurredAt.micros = .ok micros) :
    micros = (event.ingestedAt.getD event.occurredAt).micros := by
  unfold ingestedUtc at h
  cases hvalue : event.ingestedAt with
  | none =>
    rw [hvalue] at h
    exact (Except.ok.inj h).symm
  | some t =>
    rw [hvalue] at h
    exact awareUtc_eq_ok h

/-- The event is one of the label of an impression. -/
def InLabel (window evaluationTime : Int) (i : ImpressionRecord) (event : BehaviorRecord) : Prop :=
  event.impressionId = some i.id ∧ event.userId = i.userId ∧ event.postId = i.postId
    ∧ i.servedAt.micros ≤ event.occurredAt.micros
    ∧ event.occurredAt.micros ≤ i.servedAt.micros + window
    ∧ event.occurredAt.micros ≤ evaluationTime
    ∧ (event.ingestedAt.getD event.occurredAt).micros ≤ evaluationTime

instance (window evaluationTime : Int) (i : ImpressionRecord) (event : BehaviorRecord) :
    Decidable (InLabel window evaluationTime i event) :=
  inferInstanceAs (Decidable (_ ∧ _ ∧ _ ∧ _ ∧ _ ∧ _ ∧ _))

/-- One round adds the event to the label it is of. -/
theorem addLabelEvent_eq_ok {byId : OrderedDict Nat ImpressionRecord}
    (hbyId : ∀ id i, byId.get id = some i → i.id = id) {window evaluationTime : Int}
    {labels labels' : OrderedDict Nat (List BehaviorRecord)} {event : BehaviorRecord}
    (h : addLabelEvent byId window evaluationTime labels event = .ok labels') {i : ImpressionRecord}
    (hi : byId.get i.id = some i) :
    (labels'.get i.id).getD [] = (labels.get i.id).getD []
      ++ if InLabel window evaluationTime i event then [event] else [] := by
  unfold addLabelEvent at h
  cases hfound : event.impressionId.bind byId.get with
  | none =>
    rw [hfound] at h
    obtain rfl := Except.ok.inj h
    have hout : ¬ InLabel window evaluationTime i event := by
      intro hin
      rw [hin.1, Option.bind_some, hi] at hfound
      cases hfound
    rw [if_neg hout, List.append_nil]
  | some impression =>
    rw [hfound] at h
    simp only [Lib.except_bind_eq_ok] at h
    obtain ⟨occurredAt, hoccurred, ingestedAt, hingested, servedAt, hserved, h⟩ := h
    obtain ⟨id, hid, hget⟩ := Option.bind_eq_some_iff.mp hfound
    have hkey : impression.id = id := hbyId id impression hget
    obtain rfl := awareUtc_eq_ok hoccurred
    obtain rfl := awareUtc_eq_ok hserved
    obtain rfl := ingestedUtc_eq_ok hingested
    by_cases hsame : id = i.id
    · -- the event names this impression
      subst hsame
      rw [hi] at hget
      obtain rfl := Option.some.inj hget
      split at h
      · next hin =>
        obtain rfl := Except.ok.inj h
        rw [if_pos ⟨hid, hin⟩, OrderedDict.get_set, if_pos rfl, Option.getD_some]
      · next hout =>
        obtain rfl := Except.ok.inj h
        rw [if_neg (fun hin => hout hin.2), List.append_nil]
    · have hout : ¬ InLabel window evaluationTime i event := by
        intro hin
        rw [hin.1] at hid
        exact hsame (Option.some.inj hid).symm
      rw [if_neg hout, List.append_nil]
      split at h
      · obtain rfl := Except.ok.inj h
        rw [OrderedDict.get_set, if_neg (fun heq => hsame (hkey.symm.trans heq.symm))]
      · obtain rfl := Except.ok.inj h
        rfl

/-- **The events of a label**, after the loop. -/
theorem foldlM_addLabelEvent_eq_ok {byId : OrderedDict Nat ImpressionRecord}
    (hbyId : ∀ id i, byId.get id = some i → i.id = id) {window evaluationTime : Int}
    {labels labels' : OrderedDict Nat (List BehaviorRecord)}
    (h : events.foldlM (addLabelEvent byId window evaluationTime) labels = .ok labels')
    {i : ImpressionRecord} (hi : byId.get i.id = some i) :
    (labels'.get i.id).getD [] = (labels.get i.id).getD []
      ++ events.filter fun event => InLabel window evaluationTime i event := by
  induction events generalizing labels with
  | nil =>
    obtain rfl := Except.ok.inj h
    rw [List.filter_nil, List.append_nil]
  | cons event events ih =>
    rw [List.foldlM_cons, Lib.except_bind_eq_ok] at h
    obtain ⟨mid, hmid, hrest⟩ := h
    rw [ih hrest, addLabelEvent_eq_ok hbyId hmid hi, List.append_assoc, List.filter_cons]
    by_cases hin : InLabel window evaluationTime i event
    · simp [hin]
    · simp [hin]

/-- **The split**: the finalized impressions, with the events in their windows. -/
theorem labelEvents_of_buildTemporalSplit {split : TemporalSplit}
    (h : buildTemporalSplit impressions events cutoffAt labelWindowHours asOf = .ok split)
    (hnodup : (impressions.map ImpressionRecord.id).Nodup) {i : ImpressionRecord}
    (hi : i ∈ split.validationImpressions) :
    i ∈ impressions ∧ split.labelEvents i
      = events.filter fun event =>
        InLabel (labelWindowHours * Dataset.hourMicros) asOf.micros i event := by
  unfold buildTemporalSplit at h
  simp only [Lib.except_bind_eq_ok] at h
  obtain ⟨-, -, cutoff, -, evaluationTime, hevaluation, -, -, h⟩ := h
  split at h
  · cases h
  simp only [Lib.except_bind_eq_ok, Lib.except_pure_eq_ok] at h
  obtain ⟨trainingEvents, -, finalized, hfinalized, labels, hlabels, rfl⟩ := h
  obtain rfl := awareUtc_eq_ok hevaluation
  have hfilter := Lib.filterM_eq_ok (q := fun i : ImpressionRecord =>
    decide (cutoff ≤ i.servedAt.micros
      ∧ i.servedAt.micros ≤ asOf.micros - labelWindowHours * Dataset.hourMicros))
    (by
      intro i _ b hb
      unfold isFinalized at hb
      simp only [Lib.except_bind_eq_ok, Lib.except_pure_eq_ok] at hb
      obtain ⟨servedAt, hserved, rfl⟩ := hb
      rw [awareUtc_eq_ok hserved]) hfinalized
  have hsub : finalized.Sublist impressions := by
    rw [hfilter]
    exact List.filter_sublist
  have hperm := Lib.stableSort_perm compareImpressions finalized
  -- the ids of the impressions differ, and so do those of the finalized ones
  have hids : (((stableSort compareImpressions finalized).map fun i => (i.id, i)).map
      Prod.fst).Nodup := by
    rw [List.map_map]
    exact ((hperm.map ImpressionRecord.id).nodup_iff).mpr (hnodup.sublist (hsub.map _))
  have hbyId : ∀ id j, OrderedDict.get (OrderedDict.update []
      ((stableSort compareImpressions finalized).map fun i => (i.id, i))) id = some j → j.id = id := by
    intro id j hget
    have hsome := OrderedDict.isSome_get_update []
      ((stableSort compareImpressions finalized).map fun i => (i.id, i)) id
    rw [hget] at hsome
    have hmem : id ∈ ((stableSort compareImpressions finalized).map fun i => (i.id, i)).map
        Prod.fst := by simpa using hsome.symm
    obtain ⟨entry, hentry, rfl⟩ := List.mem_map.mp hmem
    obtain ⟨k, hk, rfl⟩ := List.mem_map.mp hentry
    rw [OrderedDict.get_update_of_mem hids [] hentry] at hget
    exact congrArg ImpressionRecord.id (Option.some.inj hget).symm
  have hget : OrderedDict.get (OrderedDict.update []
      ((stableSort compareImpressions finalized).map fun i => (i.id, i))) i.id = some i :=
    OrderedDict.get_update_of_mem hids [] (List.mem_map.mpr ⟨i, hi, rfl⟩)
  refine ⟨hsub.subset (hperm.mem_iff.mp hi), ?_⟩
  exact foldlM_addLabelEvent_eq_ok hbyId hlabels hget

/-- **A target** is made of the events in the window of its impression. -/
theorem trainingTargets_eq_ok {version : Label.Python.LabelVersion} {qualifiedReadMs : Int}
    {targets : List (ImpressionRecord × Option Int)}
    (h : trainingTargets version qualifiedReadMs impressions events cutoffAt labelWindowHours asOf
      = .ok targets) (hnodup : (impressions.map ImpressionRecord.id).Nodup) {i : ImpressionRecord}
    {target : Option Int} (hi : (i, target) ∈ targets) :
    i ∈ impressions ∧ impressionTarget version qualifiedReadMs (events.filter fun event =>
      InLabel (labelWindowHours * Dataset.hourMicros) asOf.micros i event) = .ok target := by
  unfold trainingTargets at h
  simp only [Lib.except_bind_eq_ok] at h
  obtain ⟨split, hsplit, htargets⟩ := h
  obtain ⟨j, hj, hentry⟩ := Lib.exists_of_mem_mapM htargets hi
  simp only [Lib.except_bind_eq_ok, Lib.except_pure_eq_ok] at hentry
  obtain ⟨t, ht, heq⟩ := hentry
  obtain ⟨rfl, rfl⟩ := Prod.mk.inj heq
  obtain ⟨hmem, hevents⟩ := labelEvents_of_buildTemporalSplit hsplit hnodup hj
  exact ⟨hmem, hevents ▸ ht⟩

/-- **There are targets only without events**: of the first row no record can be made. -/
theorem evaluateTargets_eq_ok {jsonText : Python.Dict → String}
    (htext : ∀ metadata, jsonText metadata ≠ "") {version : Label.Python.LabelVersion}
    {qualifiedReadMs : Int} {impressionRows : List Impression} {eventRows : List EventRow}
    {targets : List (ImpressionRecord × Option Int)}
    (h : evaluateTargets jsonText version qualifiedReadMs impressionRows eventRows cutoffAt
      labelWindowHours asOf = .ok targets) :
    eventRows = [] ∧ trainingTargets version qualifiedReadMs (impressionRows.map impressionRecord) []
      cutoffAt labelWindowHours asOf = .ok targets := by
  unfold evaluateTargets at h
  cases eventRows with
  | nil => exact ⟨rfl, h⟩
  | cons row rows =>
    simp only [List.mapM_cons, Lib.except_bind_eq_ok] at h
    obtain ⟨records, ⟨record, hrecord, -⟩, -⟩ := h
    unfold behaviorRecord dictOfText at hrecord
    rw [if_neg (htext row.metadata)] at hrecord
    cases hrecord

end Spec

end Oecophylla.Recommendation.Evaluate
