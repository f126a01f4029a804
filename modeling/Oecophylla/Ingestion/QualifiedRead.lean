import Oecophylla.Ingestion.Jsonb
import Oecophylla.Ingestion.Validate
import Oecophylla.Label.Python

namespace Oecophylla.Ingestion

open Oecophylla.Python (Value Dict Datetime ofJson ofJsonFields)
open Label (Semantic)
open Label.Python (Event LabelVersion deriveLabel eventLabelVersion)

/-!
# Qualified reads at ingestion and in the labels

The ingestion handler decides whether a view or a dwell is a qualified read when it validates
the event; the offline pipeline decides it again when it labels the stored row.

* `StoredEvent`, `fromMapping` — a row, and the object the pipeline makes of it
  (`ai_pipeline/schemas.py`);
* `YieldsQualifiedRead` — the label of the row next to a visible impression;
* `MeasuredAlike` — the two sides measure the event alike;
* `qualifiedSignal_iff_label` — they agree exactly when they measure it alike.
-/

/-- What the pipeline reads of a row of `behavior_events`. -/
structure StoredEvent where
  id : Uuid
  eventType : String
  dwellMs : Option Int
  metadata : Object
  occurredAt : Datetime
  ingestedAt : Datetime

/-- `BehaviorEvent.from_mapping(row)`, with the attributes that the resolver reads. -/
def fromMapping (row : StoredEvent) : Event :=
  .record [("id", .uuid row.id), ("event_type", .str row.eventType),
    ("dwell_ms", (row.dwellMs.map Value.int).getD .none),
    ("occurred_at", .datetime row.occurredAt), ("ingested_at", .datetime row.ingestedAt),
    ("event_version",
      match (Dict.get (ofJsonFields row.metadata) "event_version").getD .none with
      | .none => .none
      | v => .str (Oecophylla.Python.str v)),
    ("metadata", .dict (ofJsonFields row.metadata))]

/-- A row that the service stored for an accepted event. -/
structure StoredAs (event : NewBehaviorEvent) (row : StoredEvent) : Prop where
  eventType : row.eventType = event.eventType
  dwellMs : row.dwellMs = event.dwellMs
  metadata : jsonb event.metadata = some (.obj row.metadata)

/-- The timestamps of a row can be read. -/
def StoredEvent.Readable (row : StoredEvent) : Prop :=
  row.occurredAt.instant.isSome ∧ row.ingestedAt.instant.isSome

instance (row : StoredEvent) : Decidable row.Readable :=
  inferInstanceAs (Decidable (_ ∧ _))

/-- The resolver, applied to a visible impression and the row under the version of the row,
    yields a qualified read (v2) or a positive target (v1). -/
def YieldsQualifiedRead (qualifiedReadMs : Int) (labelWindowClosed : Bool)
    (visible row : StoredEvent) : Prop :=
  ∃ version r, eventLabelVersion (fromMapping row) = .ok version
    ∧ deriveLabel [fromMapping visible, fromMapping row] version qualifiedReadMs labelWindowClosed
      [] false = .ok r
    ∧ match version with
      | .v1 => r.trainingTarget = some 1
      | .v2 => r.semantic = .qualifiedRead

/-- **The condition.**  A dwell, a view without a continuous duration, a view whose integer
    duration is not below a threshold that its `dwell_ms` reaches, or a view whose other
    value becomes an integer that reaches the threshold exactly when its `dwell_ms` does. -/
def MeasuredAlike (qualifiedReadMs : Int) (raw : RawBehaviorEvent) : Prop :=
  raw.eventType = "dwell" ∨ ∀ metadata, raw.metadata = .obj metadata →
    match Object.get metadata "continuous_visible_ms" with
    | none | some .null => True
    | some v =>
      match v.asI64 with
      | some z => ¬ (z < qualifiedReadMs ∧ qualifiedReadMs ≤ raw.dwellMs.getD 0)
      | none =>
        qualifiedReadMs ≤ raw.dwellMs.getD 0 ↔
          ∃ stored ∈ jsonb v, ∃ ms ∈ Oecophylla.Python.int (ofJson stored), qualifiedReadMs ≤ ms

/-! ### The row, as the resolver sees it -/

/-- The mapping that the resolver makes of a row. -/
def mappingOf (row : StoredEvent) : Dict := Label.Python.eventMapping [] (fromMapping row)

section Mapping

variable {row : StoredEvent}

theorem mappingOf_get (row : StoredEvent) :
    (mappingOf row).get "event_id" = some (.uuid row.id)
      ∧ (mappingOf row).get "event_type" = some (.str row.eventType)
      ∧ (mappingOf row).get "occurred_at" = some (.datetime row.occurredAt)
      ∧ (mappingOf row).get "ingested_at" = some (.datetime row.ingestedAt)
      ∧ (mappingOf row).get "continuous_visible_ms" = none
      ∧ (mappingOf row).get "dwell_ms" = row.dwellMs.map Value.int
      ∧ (mappingOf row).get "metadata" = some (.dict (ofJsonFields row.metadata)) := by
  unfold mappingOf fromMapping
  generalize hversion : (match (Dict.get (ofJsonFields row.metadata) "event_version").getD .none with
    | .none => Value.none
    | v => .str (Oecophylla.Python.str v)) = version
  have hshape : version = .none ∨ ∃ s, version = .str s := by
    subst hversion
    split
    · exact .inl rfl
    · exact .inr ⟨_, rfl⟩
  rcases hshape with rfl | ⟨s, rfl⟩ <;> cases row.dwellMs <;>
    simp [Label.Python.eventMapping, Dict.get, Object.set, List.lookup_cons]

theorem eventId_mappingOf : Label.Python.eventId (mappingOf row)
    = some (Oecophylla.Python.uuidText row.id) := by
  simp [Label.Python.eventId, mappingOf_get, Oecophylla.Python.str]

theorem eventType_mappingOf : Label.Python.eventType (mappingOf row) = row.eventType := by
  simp [Label.Python.eventType, mappingOf_get, Oecophylla.Python.str]

theorem sortKey_mappingOf (h : row.Readable) : (Label.Python.sortKey (mappingOf row)).isSome := by
  obtain ⟨occurred, hoccurred⟩ := Option.isSome_iff_exists.mp h.1
  obtain ⟨ingested, hingested⟩ := Option.isSome_iff_exists.mp h.2
  simp [Label.Python.sortKey, mappingOf_get, Label.Python.timestamp, hoccurred, hingested]

/-- The measured duration: the continuous duration of the metadata, else `dwell_ms`. -/
theorem duration_mappingOf : Label.Python.duration (mappingOf row) =
    match (Object.get row.metadata "continuous_visible_ms").map ofJson with
    | none | some .none => Label.Python.value (mappingOf row) "dwell_ms"
    | some v => v := by
  unfold Label.Python.duration
  have hvalue : Label.Python.value (mappingOf row) "continuous_visible_ms"
      = ((Object.get row.metadata "continuous_visible_ms").map ofJson).getD .none := by
    unfold Label.Python.value
    simp only [mappingOf_get, Oecophylla.Python.get_ofJsonFields]
  rw [hvalue]
  cases (Object.get row.metadata "continuous_visible_ms").map ofJson with
  | none => rfl
  | some v => cases v <;> rfl

end Mapping

/-! ### The label of an impression and a row -/

section Pair

variable {qualifiedReadMs : Int} {labelWindowClosed : Bool} {version : LabelVersion}
  {visible row : StoredEvent}

/-- The label of a qualified read. -/
def readLabel : LabelVersion → Semantic
  | .v1 => .positive
  | .v2 => .qualifiedRead

theorem round_visible (t : Label.Tally) (h : visible.eventType = "visible") :
    Label.Python.round version qualifiedReadMs false t (mappingOf visible)
      = .ok { t with visible := true } := by
  have htimed : Label.timed "visible" = false := rfl
  have htransition : t.transition "visible" = { t with visible := true } := rfl
  unfold Label.Python.round Label.Python.qualifies
  rw [eventType_mappingOf, h, htransition]
  simp [htimed]

theorem round_row (t : Label.Tally) (h : Label.timed row.eventType = true) :
    Label.Python.round version qualifiedReadMs false t (mappingOf row)
      = match Label.Python.qualifies qualifiedReadMs (mappingOf row) with
        | none => .error .duration
        | some true => .ok (t.add (readLabel version))
        | some false => .ok t := by
  have htype : row.eventType = "view" ∨ row.eventType = "dwell" := by
    simpa [Label.timed] using h
  have htransition : t.transition row.eventType = t := by
    rcases htype with h | h <;> rw [h] <;> rfl
  unfold Label.Python.round
  rw [eventType_mappingOf, htransition]
  simp only [Bool.false_eq_true, false_and, and_false, if_false]
  cases version <;> rfl

/-- Two events are sorted one way or the other. -/
theorem stableSort_pair {α : Type} (cmp : α → α → Ordering) (a b : α) :
    Lib.stableSort cmp [a, b] = [a, b] ∨ Lib.stableSort cmp [a, b] = [b, a] := by
  unfold Lib.stableSort
  by_cases h : (cmp a b).isLE = true <;> simp [List.orderedInsert, h]

/-- The loop over a visible impression and a view or a dwell, in either order. -/
theorem foldlM_round_pair (hvisible : visible.eventType = "visible")
    (htimed : Label.timed row.eventType = true) {sorted : List Dict}
    (hsorted : sorted = [mappingOf visible, mappingOf row]
      ∨ sorted = [mappingOf row, mappingOf visible]) :
    sorted.foldlM (Label.Python.round version qualifiedReadMs false) .empty
      = match Label.Python.qualifies qualifiedReadMs (mappingOf row) with
        | none => .error .duration
        | some q => .ok { (if q then Label.Tally.empty.add (readLabel version)
            else Label.Tally.empty) with visible := true } := by
  rcases hsorted with rfl | rfl <;>
    rcases hq : Label.Python.qualifies qualifiedReadMs (mappingOf row) with _ | _ | _ <;>
      simp [round_visible _ hvisible, round_row _ htimed, hq, bind, Except.bind, Label.Tally.add,
        pure, Except.pure]

/-- The label of a visible impression and a view or a dwell. -/
theorem deriveLabel_pair (hpos : 0 < qualifiedReadMs) (hvisible : visible.eventType = "visible")
    (htimed : Label.timed row.eventType = true)
    (hid : Oecophylla.Python.uuidText visible.id ≠ Oecophylla.Python.uuidText row.id)
    (hv : visible.Readable) (hr : row.Readable) (P : Semantic → Prop) :
    (∃ r, deriveLabel [fromMapping visible, fromMapping row] version qualifiedReadMs
        labelWindowClosed [] false = .ok r ∧ P r.semantic)
      ↔ ∃ q, Label.Python.qualifies qualifiedReadMs (mappingOf row) = some q
        ∧ P (if q then readLabel version else Label.plain labelWindowClosed) := by
  have hneg : ¬ qualifiedReadMs ≤ 0 := by omega
  have hkey : ∀ event ∈ [mappingOf visible, mappingOf row],
      (Label.Python.eventId event).isSome := by
    simp [eventId_mappingOf]
  have hdistinct : ([mappingOf visible, mappingOf row].map Label.Python.eventId).Nodup := by
    simpa [eventId_mappingOf] using hid
  have hcollect : Lib.collect Label.Python.eventId Label.Python.samePayload
      [mappingOf visible, mappingOf row] = .ok ⟨[mappingOf visible, mappingOf row], [], 0⟩ :=
    (Lib.collect_eq_ok_iff Label.Python.samePayload_refl).mpr
      ⟨Lib.not_conflicting_of_nodup Label.Python.samePayload_refl hkey hdistinct,
        (Lib.collected_of_nodup hkey hdistinct).symm⟩
  have hsort : Label.Python.sort [mappingOf visible, mappingOf row] = .ok
      (Lib.stableSort Label.Python.compareEvents [mappingOf visible, mappingOf row]) :=
    Label.Python.sort_eq_ok_iff.mpr
      ⟨by simp [sortKey_mappingOf hv, sortKey_mappingOf hr], rfl⟩
  have hmap : [fromMapping visible, fromMapping row].map (Label.Python.eventMapping [])
      = [mappingOf visible, mappingOf row] := rfl
  have hlabel : ∀ q : Bool, Label.highest (Label.withPlain true labelWindowClosed
      (Label.Python.candidatesOf version { (if q then Label.Tally.empty.add (readLabel version)
        else Label.Tally.empty) with visible := true }))
      = if q then readLabel version else Label.plain labelWindowClosed := by
    intro q
    cases q <;> cases version <;> cases labelWindowClosed <;> rfl
  unfold deriveLabel
  rw [if_neg hneg, hmap, hcollect]
  simp only [Lib.Collected.accepted, List.append_nil, hsort, Lib.except_bind_eq_ok, Except.ok.injEq,
    exists_eq_left', Lib.except_pure_eq_ok, foldlM_round_pair hvisible htimed
      (stableSort_pair Label.Python.compareEvents (mappingOf visible) (mappingOf row))]
  cases hq : Label.Python.qualifies qualifiedReadMs (mappingOf row) with
  | none => simp
  | some q =>
    simp only [Except.ok.injEq, exists_eq_left', exists_eq_left, Option.some.injEq, hlabel]

end Pair

/-! ### The flag and the label -/

section Agreement

variable {qualifiedReadMs : Int} {labelWindowClosed : Bool} {visible row : StoredEvent}

/-- The version that the row carries is the version of the event. -/
theorem eventLabelVersion_fromMapping {labelVersion : String}
    (hversion : labelVersion = "v1" ∨ labelVersion = "v2")
    (hrow : Object.get row.metadata "event_version" = some (.str labelVersion)) :
    eventLabelVersion (fromMapping row) = .ok (if labelVersion = "v1" then .v1 else .v2) := by
  have hpersisted : Dict.get (ofJsonFields row.metadata) "event_version"
      = some (.str labelVersion) := by
    rw [Oecophylla.Python.get_ofJsonFields, hrow]
    rfl
  unfold eventLabelVersion fromMapping Label.Python.objectValue
  rw [hpersisted]
  rcases hversion with rfl | rfl <;> simp [Dict.get, List.lookup_cons, Oecophylla.Python.str]

/-- When the label of the pair is a qualified read. -/
theorem yieldsQualifiedRead_iff (hpos : 0 < qualifiedReadMs) {labelVersion : String}
    (hversion : labelVersion = "v1" ∨ labelVersion = "v2")
    (hrow : Object.get row.metadata "event_version" = some (.str labelVersion))
    (hvisible : visible.eventType = "visible") (htimed : Label.timed row.eventType = true)
    (hid : Oecophylla.Python.uuidText visible.id ≠ Oecophylla.Python.uuidText row.id)
    (hv : visible.Readable) (hr : row.Readable) :
    YieldsQualifiedRead qualifiedReadMs labelWindowClosed visible row ↔
      Label.Python.qualifies qualifiedReadMs (mappingOf row) = some true := by
  unfold YieldsQualifiedRead
  rw [eventLabelVersion_fromMapping hversion hrow]
  simp only [Except.ok.injEq, exists_and_left, exists_eq_left']
  rcases hversion with rfl | rfl
  · -- v1: a positive target
    have htarget : (∃ r, deriveLabel [fromMapping visible, fromMapping row] .v1 qualifiedReadMs
          labelWindowClosed [] false = .ok r ∧ r.trainingTarget = some 1)
        ↔ ∃ r, deriveLabel [fromMapping visible, fromMapping row] .v1 qualifiedReadMs
          labelWindowClosed [] false = .ok r ∧ Label.trainingTarget r.semantic = some 1 := by
      refine exists_congr fun r => and_congr_right fun h => ?_
      rw [Label.Python.trainingTarget_of_deriveLabel h]
    simp only [if_true]
    rw [htarget, deriveLabel_pair hpos hvisible htimed hid hv hr
      fun s => Label.trainingTarget s = some 1]
    constructor
    · rintro ⟨q, hq, htrain⟩
      cases q with
      | true => exact hq
      | false => cases labelWindowClosed <;> simp [Label.plain, Label.trainingTarget] at htrain
    · exact fun hq => ⟨true, hq, rfl⟩
  · -- v2: the label of a qualified read
    simp only [String.reduceEq, if_false]
    rw [deriveLabel_pair hpos hvisible htimed hid hv hr fun s => s = .qualifiedRead]
    constructor
    · rintro ⟨q, hq, hlabel⟩
      cases q with
      | true => exact hq
      | false => cases labelWindowClosed <;> simp [Label.plain] at hlabel
    · exact fun hq => ⟨true, hq, rfl⟩

/-- What the resolver measures on a row with a duration. -/
theorem qualifies_mappingOf {dwellMs : Int} (htimed : Label.timed row.eventType = true)
    (hdwell : row.dwellMs = some dwellMs) :
    Label.Python.qualifies qualifiedReadMs (mappingOf row) = some true ↔
      match Object.get row.metadata "continuous_visible_ms" with
      | none | some .null => qualifiedReadMs ≤ dwellMs
      | some v => ∃ ms ∈ Oecophylla.Python.int (ofJson v), qualifiedReadMs ≤ ms := by
  have hvalue : Label.Python.value (mappingOf row) "dwell_ms" = .int dwellMs := by
    unfold Label.Python.value
    simp [mappingOf_get, hdwell]
  unfold Label.Python.qualifies
  rw [eventType_mappingOf, if_pos htimed, duration_mappingOf, hvalue]
  cases Object.get row.metadata "continuous_visible_ms" with
  | none => simp [Oecophylla.Python.int]
  | some v => cases v <;> simp [ofJson, Oecophylla.Python.int, Option.mem_def]

/-- A stored value other than `null` is what the resolver measures. -/
private theorem measured_of_ne_null {v : Json} (h : v ≠ .null) {p : Prop} {q : Json → Prop} :
    (match some v with
      | none | some .null => p
      | some w => q w) = q v := by
  cases v <;> first | rfl | exact absurd rfl h

/-- The stored metadata has the version and, as `jsonb` keeps it, the continuous duration. -/
theorem stored_metadata {metadata stored : Object} {labelVersion : String}
    (hversion : labelVersion = "v1" ∨ labelVersion = "v2")
    (h : jsonb (.obj (Object.set metadata "event_version" (.str labelVersion)))
      = some (.obj stored)) :
    Object.get stored "event_version" = some (.str labelVersion)
      ∧ match Object.get metadata "continuous_visible_ms" with
        | none => Object.get stored "continuous_visible_ms" = none
        | some v => ∃ v', jsonb v = some v' ∧ Object.get stored "continuous_visible_ms" = some v' := by
  have hfields : jsonbFields (Object.set metadata "event_version" (.str labelVersion))
      = some stored := by
    simpa [jsonb] using h
  have hcontinuous : Object.get (Object.set metadata "event_version" (.str labelVersion))
      "continuous_visible_ms" = Object.get metadata "continuous_visible_ms" :=
    Object.get_set_of_ne _ (by decide)
  constructor
  · rw [get_jsonbFields hfields, Object.get_set_self]
    rcases hversion with rfl | rfl <;> rfl
  · cases hv : Object.get metadata "continuous_visible_ms" with
    | none =>
      show Object.get stored "continuous_visible_ms" = none
      rw [get_jsonbFields hfields, hcontinuous, hv, Option.bind_none]
    | some v =>
      exact exists_jsonb_of_get hfields (hcontinuous.trans hv)

/-- **The flag and the label.**  For every accepted view or dwell, the flag that drives the
    outbox event and the label of the stored row agree exactly when the two sides measure the
    event alike. -/
theorem qualifiedSignal_iff_label {parseUuid : String → Option Uuid} {index : Nat}
    {raw : RawBehaviorEvent} {now : Instant} {id : Uuid} {v : ValidatedBehaviorEvent}
    (hpos : 0 < qualifiedReadMs)
    (hv : validateBehaviorEvent parseUuid index raw now qualifiedReadMs id = .ok v)
    (htype : raw.eventType = "view" ∨ raw.eventType = "dwell") (hrow : StoredAs v.event row)
    (hvisible : visible.eventType = "visible")
    (hid : Oecophylla.Python.uuidText visible.id ≠ Oecophylla.Python.uuidText row.id)
    (hvtimes : visible.Readable) (hrtimes : row.Readable) :
    (v.qualifiedSignal = true ↔ YieldsQualifiedRead qualifiedReadMs labelWindowClosed visible row)
      ↔ MeasuredAlike qualifiedReadMs raw := by
  obtain ⟨hversion, hrange, metadata, dwellMs, hmetadata, hkind, hveq⟩ :=
    validateBehaviorEvent_eq_ok hv
  obtain ⟨htypeRow, hdwellRow, hjsonb⟩ := hrow
  rw [hveq] at htypeRow hdwellRow hjsonb
  obtain ⟨hrowVersion, hrowContinuous⟩ := stored_metadata hversion hjsonb
  have htimed : Label.timed row.eventType = true := by
    rw [htypeRow]
    rcases htype with h | h <;> simp [h, Label.timed]
  rw [yieldsQualifiedRead_iff hpos hversion hrowVersion hvisible htimed hid hvtimes hrtimes]
  rcases htype with hview | hdwell
  · -- a view: the flag takes the maximum of the two durations
    have hkind' : validateView parseUuid metadata raw.labelVersion raw.dwellMs qualifiedReadMs
        = .ok (dwellMs, v.qualifiedSignal) := by
      simpa [validateKind, hview] using hkind
    obtain ⟨hcontinuousRange, -, hmeasured⟩ := validateView_eq_ok hkind'
    rw [Prod.mk.injEq] at hmeasured
    obtain ⟨rfl, hflag⟩ := hmeasured
    have hnotDwell : ¬ raw.eventType = "dwell" := by rw [hview]; decide
    rw [hflag, decide_eq_true_iff, qualifies_mappingOf htimed hdwellRow]
    unfold MeasuredAlike
    simp only [hnotDwell, false_or, hmetadata, Json.obj.injEq, forall_eq']
    have hcont : continuousMs metadata
        = ((Object.get metadata "continuous_visible_ms").bind Json.asI64).getD 0 := rfl
    rw [hcont]
    cases hget : Object.get metadata "continuous_visible_ms" with
    | none =>
      rw [hget] at hrowContinuous
      simp [hrowContinuous]
    | some w =>
      rw [hget] at hrowContinuous
      obtain ⟨w', hw', hrowGet⟩ := hrowContinuous
      rw [hrowGet]
      by_cases hnull : w = .null
      · subst hnull
        obtain rfl : Json.null = w' := by simpa [jsonb] using hw'
        simp [Json.asI64]
      · have hnull' : w' ≠ .null := fun h => hnull (eq_null_of_jsonb (h ▸ hw'))
        rw [measured_of_ne_null hnull', measured_of_ne_null hnull, Option.bind_some]
        cases hi : w.asI64 with
        | some z =>
          -- an integer of 64 bits is stored as it is
          obtain rfl := Json.asI64_eq_some hi
          obtain rfl : Json.int z = w' := by simpa [jsonb] using hw'
          simp only [Option.getD_some, ofJson, Oecophylla.Python.int, Option.mem_def,
            Option.some.injEq, exists_eq_left']
          omega
        | none =>
          -- anything else counts as nothing here
          have hmax : max 0 (raw.dwellMs.getD 0) = raw.dwellMs.getD 0 := max_eq_right hrange.1
          simp only [Option.getD_none, hmax, hw', Option.mem_def, Option.some.injEq,
            exists_eq_left']
  · have hkind' : validateDwell parseUuid metadata raw.dwellMs qualifiedReadMs
        = .ok (dwellMs, v.qualifiedSignal) := by
      simpa [validateKind, hdwell] using hkind
    obtain ⟨hnone, hsome, hmeasured⟩ := validateDwell_eq_ok hkind'
    rw [Prod.mk.injEq] at hmeasured
    obtain ⟨rfl, hflag⟩ := hmeasured
    obtain ⟨d, hd⟩ := Option.isSome_iff_exists.mp hsome
    rw [hnone] at hrowContinuous
    have hgoal : v.qualifiedSignal = true ↔
        Label.Python.qualifies qualifiedReadMs (mappingOf row) = some true := by
      rw [hflag, decide_eq_true_iff, qualifies_mappingOf htimed (hdwellRow.trans hd), hd]
      simp only [hrowContinuous, Option.getD_some]
    exact iff_of_true hgoal (.inl hdwell)

end Agreement

/-- A v1 view with two durations. -/
private def rawView (dwellMs continuous : Int) : RawBehaviorEvent where
  clientEventId := 1
  postId := 2
  impressionId := none
  sessionId := none
  eventType := "view"
  eventVersion := some "v1"
  dwellMs := some dwellMs
  metadata := .obj [("continuous_visible_ms", .int continuous), ("trigger", .str "detail")]
  occurredAt := 0

/-- A row at noon. -/
private def rowOf (id : Uuid) (eventType : String) (dwellMs : Option Int) (metadata : Object) :
    StoredEvent where
  id := id
  eventType := eventType
  dwellMs := dwellMs
  metadata := metadata
  occurredAt := ⟨2026, 8, 30, 12, 0, 0, 0, some 0⟩
  ingestedAt := ⟨2026, 8, 30, 12, 0, 0, 0, some 0⟩

/-- A view whose two durations are one. -/
theorem qualifiedSignal_iff_label_same :
    ∃ v, validateBehaviorEvent (fun _ => none) 0 (rawView 12000 12000) 0 10000 3 = .ok v ∧
      ((v.qualifiedSignal = true ↔ YieldsQualifiedRead 10000 true (rowOf 1 "visible" none [])
          (rowOf 3 "view" (some 12000) [("continuous_visible_ms", .int 12000),
            ("trigger", .str "detail"), ("event_version", .str "v1")]))
        ↔ MeasuredAlike 10000 (rawView 12000 12000)) := by
  have hv : validateBehaviorEvent (fun _ => none) 0 (rawView 12000 12000) 0 10000 3 = .ok
      ⟨0, ⟨3, 1, 2, none, none, "view", some 12000, .obj [("continuous_visible_ms", .int 12000),
        ("trigger", .str "detail"), ("event_version", .str "v1")], 0⟩, true, none⟩ := by rfl
  exact ⟨_, hv, qualifiedSignal_iff_label (by decide) hv (by decide) ⟨rfl, rfl, rfl⟩ rfl
    (by decide) (by decide) (by decide)⟩

/-- **Counterexample.**  A v1 view with `dwell_ms` 12000 and a continuous duration of 3000:
    the handler takes the maximum and flags it, the resolver looks at the continuous duration
    first and does not. -/
theorem qualifiedSignal_without_label :
    ∃ v row, validateBehaviorEvent (fun _ => none) 0 (rawView 12000 3000) 0 10000 3 = .ok v
      ∧ StoredAs v.event row ∧ v.qualifiedSignal = true
      ∧ ¬ YieldsQualifiedRead 10000 true (rowOf 1 "visible" none []) row := by
  refine ⟨⟨0, ⟨3, 1, 2, none, none, "view", some 12000, .obj [("continuous_visible_ms", .int 3000),
      ("trigger", .str "detail"), ("event_version", .str "v1")], 0⟩, true, none⟩,
    rowOf 3 "view" (some 12000) [("continuous_visible_ms", .int 3000), ("trigger", .str "detail"),
      ("event_version", .str "v1")], by rfl, ⟨rfl, rfl, rfl⟩, rfl, ?_⟩
  rw [yieldsQualifiedRead_iff (by decide) (.inl rfl) rfl rfl rfl (by decide) (by decide) (by decide)]
  decide

end Oecophylla.Ingestion
