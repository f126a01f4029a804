import Oecophylla.Frontend.DetailRead
import Oecophylla.Frontend.Telemetry
import Oecophylla.Frontend.ViewTracker
import Oecophylla.Ingestion.Validate
import Oecophylla.Label.Size

namespace Oecophylla.Frontend.Acceptable

open Ingestion (RawBehaviorEvent inHalfToOne requireMetadataKeys validateBehaviorEvent validateKind
  visitIdOf)
open Telemetry (BehaviorEvent EventType LabelVersion MetaValue visitMetadata)

/-!
# What the client sends, the server accepts

The web client and the interaction service state the rules of a telemetry event separately.  Here an
event of the client is read and validated as the service does.

* `rawOf` — an event of a batch as the service reads it;
* `Shaped` — the durations and the metadata that the client puts into its events;
* `Sendable.accepted` — with UUIDs for ids, such an event passes `validate_behavior_event`.

The crates `uuid` and `serde_json` are parameters, with what is known of them in `Reads`.
-/

variable {K : Type*} [Field K] [LinearOrder K] [FloorRing K]

/-! ### The events at the service -/

/-- A value of the metadata, as it is read; `read` reads the text of a number. -/
def metaJson (read : K → Json) : MetaValue K → Json
  | .text s => .str s
  | .integer n => .int n
  | .number x => read x

/-- An event of a batch after `serde_json::from_value`; the client counts milliseconds. -/
def rawOf (parseUuid : String → Option Ingestion.Uuid) (read : K → Json) (event : BehaviorEvent K) :
    Option RawBehaviorEvent := do
  let clientEventId ← parseUuid event.clientEventId
  let postId ← parseUuid event.postId
  let impressionId ← match event.impressionId with
    | none => some none
    | some text => (parseUuid text).map some
  let sessionId ← parseUuid event.sessionId
  some {
    clientEventId
    postId
    impressionId
    sessionId := some sessionId
    eventType := event.eventType.text
    eventVersion := some event.eventVersion.text
    dwellMs := event.dwellMs
    metadata := .obj (event.metadata.map (Prod.map id (metaJson read)))
    occurredAt := event.occurredAt * 1000 }

/-- An event that is read, and accepted at any position, time and drawn id. -/
def Accepted (parseUuid : String → Option Ingestion.Uuid) (read : K → Json) (qualifiedReadMs : Int)
    (event : BehaviorEvent K) : Prop :=
  ∃ raw, rawOf parseUuid read event = some raw ∧ ∀ index now id, ∃ validated,
    validateBehaviorEvent parseUuid index raw now qualifiedReadMs id = .ok validated

/-- What is known of `Uuid::parse_str`, and of a number that `JSON.stringify` writes and `serde_json`
    reads. -/
structure Reads (parseUuid : String → Option Ingestion.Uuid) (read : K → Json) : Prop where
  /-- The longest text of a UUID is `urn:uuid:` and its 36 characters. -/
  uuid : ∀ text id, parseUuid text = some id → text.utf8ByteSize ≤ 45
  /-- The number that is read compares like the one that was written. -/
  number : ∀ x, inHalfToOne (read x) = some (decide (1 / 2 ≤ x ∧ x ≤ 1))
  /-- The text of a double is short. -/
  short : ∀ x, (Label.Rust.serde.write (read x)).utf8ByteSize ≤ 32

section Validate

variable {parseUuid : String → Option Ingestion.Uuid} {read : K → Json} {qualifiedReadMs : Int}

/-- A visit id that is there is a UUID. -/
def VisitOk (parseUuid : String → Option Ingestion.Uuid) (visitId : Option String) : Prop :=
  ∀ text ∈ visitId, (parseUuid text).isSome

/-- What the client puts into an event of a type. -/
inductive Shaped (parseUuid : String → Option Ingestion.Uuid) (qualifiedReadMs : Int) :
    EventType → Option Int → List (String × MetaValue K) → Prop where
  | visible (ratio : K) (hlow : 1 / 2 ≤ ratio) (hhigh : ratio ≤ 1) :
    Shaped parseUuid qualifiedReadMs .visible none [("viewport_ratio", .number ratio)]
  | view (trigger : ViewTrigger) (durationMs : Int) (visitId : Option String)
    (hnonneg : 0 ≤ durationMs) (hmax : durationMs ≤ maxDwellMs)
    (hlong : trigger = .feed → qualifiedReadMs ≤ durationMs) (hvisit : VisitOk parseUuid visitId) :
    Shaped parseUuid qualifiedReadMs .view (some durationMs)
      ([("continuous_visible_ms", .integer durationMs), ("trigger", .text trigger.text)]
        ++ visitMetadata visitId)
  | click : Shaped parseUuid qualifiedReadMs .click none [("target", .text "post_detail")]
  | dwell (trigger : DwellTrigger) (durationMs : Int) (visitId : Option String)
    (hnonneg : 0 ≤ durationMs) (hmax : durationMs ≤ maxDwellMs) (hvisit : VisitOk parseUuid visitId) :
    Shaped parseUuid qualifiedReadMs .dwell (some durationMs)
      ([("trigger", .text trigger.text)] ++ visitMetadata visitId)

theorem requireMetadataKeys_of_subset {metadata : Object} {allowed : List String}
    (h : ∀ key ∈ metadata.map Prod.fst, key ∈ allowed) :
    requireMetadataKeys metadata allowed = .ok () := by
  unfold requireMetadataKeys
  split
  · next key hfind =>
    have hmem := Lib.mem_stableSort.mp (List.mem_of_find?_eq_some hfind)
    have hforeign := List.find?_some hfind
    exact absurd (h key hmem) (by simpa using hforeign)
  · rfl

theorem refuseIf_of_not {c : Prop} [Decidable c] {code message : String} (h : ¬ c) :
    Ingestion.refuseIf c code message = .ok () := if_neg h

omit [FloorRing K] in
theorem validateVisible_ok (hreads : Reads parseUuid read) {ratio : K} (hlow : 1 / 2 ≤ ratio)
    (hhigh : ratio ≤ 1) : ∃ r, Ingestion.validateVisible [("viewport_ratio", read ratio)] none = .ok r := by
  have hratio : inHalfToOne (read ratio) = some true := by
    rw [hreads.number, decide_eq_true ⟨hlow, hhigh⟩]
  have hkeys : requireMetadataKeys [("viewport_ratio", read ratio)] ["viewport_ratio"] = .ok () :=
    requireMetadataKeys_of_subset (by simp)
  unfold Ingestion.validateVisible
  simp only [Lib.except_bind_eq_ok]
  refine ⟨(none, false), (), hkeys, (), refuseIf_of_not (by simp), ?_⟩
  simp [Object.get_cons, hratio]

theorem validateClick_ok :
    ∃ r, Ingestion.validateClick [("target", .str "post_detail")] none = .ok r := by
  have hkeys : requireMetadataKeys [("target", .str "post_detail")] ["target"] = .ok () :=
    requireMetadataKeys_of_subset (by simp)
  unfold Ingestion.validateClick
  simp only [Lib.except_bind_eq_ok]
  exact ⟨(none, false), (), hkeys, (), refuseIf_of_not (by simp [Object.get_cons, Json.asStr]), rfl⟩

/-- A visit id is missing or a UUID. -/
theorem validateVisitId_ok {metadata : Object}
    (h : ∀ v ∈ metadata.get "visit_id", ∃ text, v = .str text ∧ (parseUuid text).isSome) :
    Ingestion.validateVisitId parseUuid metadata = .ok () := by
  refine refuseIf_of_not ?_
  rintro ⟨hsome, hnone⟩
  obtain ⟨v, hv⟩ := Option.isSome_iff_exists.mp hsome
  obtain ⟨text, rfl, hid⟩ := h v hv
  have hvisit : visitIdOf parseUuid metadata = parseUuid text := by
    unfold visitIdOf
    rw [hv]
    rfl
  rw [hvisit, Option.isNone_iff_eq_none] at hnone
  rw [hnone] at hid
  cases hid

/-- The metadata with a visit id at its end, or without one. -/
def withVisit (visitId : Option String) (metadata : Object) : Object :=
  metadata ++ (visitId.map fun text => ("visit_id", Json.str text)).toList

theorem validateView_ok {trigger : ViewTrigger} {durationMs : Int} {visitId : Option String}
    (hnonneg : 0 ≤ durationMs) (hmax : durationMs ≤ maxDwellMs)
    (hlong : trigger = .feed → qualifiedReadMs ≤ durationMs) (hvisit : VisitOk parseUuid visitId) :
    ∃ r, Ingestion.validateView parseUuid (withVisit visitId
      [("continuous_visible_ms", .int durationMs), ("trigger", .str trigger.text)]) "v2"
      (some durationMs) qualifiedReadMs = .ok r := by
  set metadata := withVisit visitId
    [("continuous_visible_ms", .int durationMs), ("trigger", .str trigger.text)]
  have hkeys : requireMetadataKeys metadata ["continuous_visible_ms", "trigger", "visit_id"] = .ok () := by
    refine requireMetadataKeys_of_subset ?_
    cases visitId <;> simp [metadata, withVisit]
  have hid : Ingestion.validateVisitId parseUuid metadata = .ok () := by
    refine validateVisitId_ok ?_
    cases visitId with
    | none => simp [metadata, withVisit, Object.get_cons]
    | some text => simpa [metadata, withVisit, Object.get_cons] using hvisit text rfl
  have hcontinuous : Ingestion.continuousMs metadata = durationMs := by
    have hmax : durationMs ≤ 1800000 := hmax
    have hrange : -2 ^ 63 ≤ durationMs ∧ durationMs < 2 ^ 63 := by omega
    unfold Ingestion.continuousMs
    simp only [metadata, withVisit, Object.get_cons, List.cons_append, if_true, Option.bind_some,
      Json.asI64, if_pos hrange, Option.getD_some]
  have htrigger : (metadata.get "trigger").bind Json.asStr = some trigger.text := by
    simp [metadata, withVisit, Object.get_cons, Json.asStr]
  unfold Ingestion.validateView
  simp only [Lib.except_bind_eq_ok, htrigger, hcontinuous]
  refine ⟨_, (), hkeys, (), hid, (), refuseIf_of_not ?_, (), refuseIf_of_not ?_, (), refuseIf_of_not ?_,
    (), refuseIf_of_not ?_, rfl⟩
  · cases trigger <;> decide
  · exact not_not.mpr ⟨hnonneg, hmax⟩
  · simp
  · rintro ⟨hfeed, hshort⟩
    have hlong := hlong (by cases trigger with
      | feed => rfl
      | detail => exact absurd hfeed (by decide))
    simp only [if_true, Option.getD_some, max_self] at hshort
    omega

theorem validateDwell_ok {trigger : DwellTrigger} {durationMs : Int} {visitId : Option String}
    (hvisit : VisitOk parseUuid visitId) :
    ∃ r, Ingestion.validateDwell parseUuid (withVisit visitId [("trigger", .str trigger.text)])
      (some durationMs) qualifiedReadMs = .ok r := by
  set metadata := withVisit visitId [("trigger", .str trigger.text)]
  have hkeys : requireMetadataKeys metadata ["trigger", "visit_id"] = .ok () := by
    refine requireMetadataKeys_of_subset ?_
    cases visitId <;> simp [metadata, withVisit]
  have hid : Ingestion.validateVisitId parseUuid metadata = .ok () := by
    refine validateVisitId_ok ?_
    cases visitId with
    | none => simp [metadata, withVisit, Object.get_cons]
    | some text => simpa [metadata, withVisit, Object.get_cons] using hvisit text rfl
  have htrigger : (metadata.get "trigger").bind Json.asStr = some trigger.text := by
    simp [metadata, withVisit, Object.get_cons, Json.asStr]
  unfold Ingestion.validateDwell
  simp only [Lib.except_bind_eq_ok, htrigger]
  refine ⟨_, (), hkeys, (), hid, (), refuseIf_of_not (by simp), (), refuseIf_of_not ?_, rfl⟩
  cases trigger <;> simp [DwellTrigger.text]

omit [Field K] [LinearOrder K] [FloorRing K] in
/-- An empty visit id is left out. -/
theorem map_visitMetadata (visitId : Option String) (metadata : List (String × MetaValue K)) :
    (metadata ++ visitMetadata visitId).map (Prod.map id (metaJson read))
      = withVisit (visitId.filter (· ≠ "")) (metadata.map (Prod.map id (metaJson read))) := by
  unfold withVisit visitMetadata
  rw [List.map_append]
  cases visitId.filter (· ≠ "") <;> rfl

theorem VisitOk.filter {visitId : Option String} (h : VisitOk parseUuid visitId) :
    VisitOk parseUuid (visitId.filter (· ≠ "")) :=
  fun text htext => h text (Option.filter_eq_some_iff.mp htext).1

omit [FloorRing K] in
/-- **The rules of the types** hold for what the client puts into its events. -/
theorem validateKind_of_shaped (hreads : Reads parseUuid read) {eventType : EventType}
    {dwellMs : Option Int} {metadata : List (String × MetaValue K)}
    (h : Shaped parseUuid qualifiedReadMs eventType dwellMs metadata) :
    ∃ r, validateKind parseUuid (metadata.map (Prod.map id (metaJson read))) eventType.text "v2" dwellMs
      qualifiedReadMs = .ok r := by
  cases h with
  | visible ratio hlow hhigh => exact validateVisible_ok hreads hlow hhigh
  | view trigger durationMs visitId hnonneg hmax hlong hvisit =>
    rw [map_visitMetadata]
    exact validateView_ok hnonneg hmax hlong hvisit.filter
  | click => exact validateClick_ok
  | dwell trigger durationMs visitId hnonneg hmax hvisit =>
    rw [map_visitMetadata]
    exact validateDwell_ok hvisit.filter

/-! ### The size of the metadata -/

theorem fieldSize_str_le (name text : String) :
    Label.fieldSize Label.Rust.serde (name, .str text)
      ≤ 6 * name.utf8ByteSize + 6 * text.utf8ByteSize + 6 := by
  have hquote := Label.utf8ByteSize_quote_le text
  show 6 * name.utf8ByteSize + (quote text).utf8ByteSize + 4 ≤ _
  omega

/-- A duration has at most seven digits. -/
theorem fieldSize_duration_le (name : String) {durationMs : Int} (hnonneg : 0 ≤ durationMs)
    (hmax : durationMs ≤ maxDwellMs) :
    Label.fieldSize Label.Rust.serde (name, .int durationMs) ≤ 6 * name.utf8ByteSize + 32 := by
  obtain ⟨n, rfl⟩ := Int.eq_ofNat_of_zero_le hnonneg
  have hmax : (n : Int) ≤ 1800000 := hmax
  have hrange : -2 ^ 63 ≤ (n : Int) ∧ (n : Int) < 2 ^ 64 := by omega
  have htext : Label.Rust.serde.write (.int n) = Nat.repr n := by
    simp only [Label.Writer.write, Label.Rust.serde, if_pos hrange]
    rfl
  have hdigits : (Nat.repr n).length ≤ 7 := by
    rw [← String.length_toList, Nat.toList_repr]
    exact (Nat.length_toDigits_le_iff (by decide) (by decide)).mpr (by omega)
  have hsize := Label.utf8ByteSize_le (Nat.repr n)
  unfold Label.fieldSize
  dsimp only
  rw [htext]
  omega

omit [FloorRing K] in
/-- A visit id adds little. -/
theorem sum_withVisit_le (hreads : Reads parseUuid read) {visitId : Option String}
    (h : VisitOk parseUuid visitId) (metadata : Object) :
    ((withVisit visitId metadata).map (Label.fieldSize Label.Rust.serde)).sum
      ≤ (metadata.map (Label.fieldSize Label.Rust.serde)).sum + 400 := by
  unfold withVisit
  rw [List.map_append, List.sum_append]
  cases visitId with
  | none => exact Nat.le_add_right _ _
  | some text =>
    obtain ⟨id, hid⟩ := Option.isSome_iff_exists.mp (h text rfl)
    have hlength := hreads.uuid text id hid
    have hname : "visit_id".utf8ByteSize = 8 := by decide
    have hfield := fieldSize_str_le "visit_id" text
    simp only [Option.map_some, Option.toList_some, List.map_singleton, List.sum_singleton]
    omega

omit [FloorRing K] in
/-- **The metadata of an event is short.** -/
theorem size_of_shaped (hreads : Reads parseUuid read) {eventType : EventType} {dwellMs : Option Int}
    {metadata : List (String × MetaValue K)}
    (h : Shaped parseUuid qualifiedReadMs eventType dwellMs metadata) :
    (Label.Rust.serde.write (.obj (metadata.map (Prod.map id (metaJson read))))).utf8ByteSize
      ≤ Ingestion.maxMetadataBytes := by
  refine (Label.utf8ByteSize_write_obj_le _ (fun fields => Lib.stableSort_perm _ fields) _).trans ?_
  show _ ≤ 8192
  have hcontinuous : "continuous_visible_ms".utf8ByteSize = 21 := by decide
  have htrigger : "trigger".utf8ByteSize = 7 := by decide
  cases h with
  | visible ratio hlow hhigh =>
    have hname : "viewport_ratio".utf8ByteSize = 14 := by decide
    have hvalue := hreads.short ratio
    show 2 + (6 * "viewport_ratio".utf8ByteSize + (Label.Rust.serde.write (read ratio)).utf8ByteSize
      + 4 + 0) ≤ 8192
    omega
  | view trigger durationMs visitId hnonneg hmax hlong hvisit =>
    have hduration := fieldSize_duration_le "continuous_visible_ms" hnonneg hmax
    have htext := fieldSize_str_le "trigger" trigger.text
    have hsize : trigger.text.utf8ByteSize ≤ 6 := by
      cases trigger <;> decide
    have hvisits := sum_withVisit_le hreads hvisit.filter
      [("continuous_visible_ms", .int durationMs), ("trigger", .str trigger.text)]
    rw [map_visitMetadata]
    refine (Nat.add_le_add_left hvisits 2).trans ?_
    simp only [List.map_cons, List.map_nil, List.sum_cons, List.sum_nil]
    omega
  | click =>
    have hname : "target".utf8ByteSize = 6 := by decide
    have hvalue : "post_detail".utf8ByteSize = 11 := by decide
    have htext := fieldSize_str_le "target" "post_detail"
    show 2 + (Label.fieldSize Label.Rust.serde ("target", .str "post_detail") + 0) ≤ 8192
    omega
  | dwell trigger durationMs visitId hnonneg hmax hvisit =>
    have htext := fieldSize_str_le "trigger" trigger.text
    have hsize : trigger.text.utf8ByteSize ≤ 13 := by
      cases trigger <;> decide
    have hvisits := sum_withVisit_le hreads hvisit.filter [("trigger", .str trigger.text)]
    rw [map_visitMetadata]
    refine (Nat.add_le_add_left hvisits 2).trans ?_
    simp only [List.map_cons, List.map_nil, List.sum_cons, List.sum_nil]
    omega

/-! ### Events that are accepted -/

/-- An event of a client with version `v2`: its ids are UUIDs, and it has the shape of its type. -/
structure Sendable (parseUuid : String → Option Ingestion.Uuid) (qualifiedReadMs : Int)
    (event : BehaviorEvent K) : Prop where
  clientEventId : (parseUuid event.clientEventId).isSome
  postId : (parseUuid event.postId).isSome
  impressionId : ∀ text ∈ event.impressionId, (parseUuid text).isSome
  sessionId : (parseUuid event.sessionId).isSome
  version : event.eventVersion = .v2
  shape : Shaped parseUuid qualifiedReadMs event.eventType event.dwellMs event.metadata

omit [FloorRing K] in
/-- An event with UUIDs for ids is read. -/
theorem Sendable.exists_rawOf {event : BehaviorEvent K} (h : Sendable parseUuid qualifiedReadMs event) :
    ∃ raw, rawOf parseUuid read event = some raw
      ∧ raw.eventType = event.eventType.text ∧ raw.labelVersion = "v2" ∧ raw.dwellMs = event.dwellMs
      ∧ raw.metadata = .obj (event.metadata.map (Prod.map id (metaJson read))) := by
  obtain ⟨clientEventId, hclient⟩ := Option.isSome_iff_exists.mp h.clientEventId
  obtain ⟨postId, hpost⟩ := Option.isSome_iff_exists.mp h.postId
  obtain ⟨sessionId, hsession⟩ := Option.isSome_iff_exists.mp h.sessionId
  have hversion : event.eventVersion.text = "v2" := congrArg LabelVersion.text h.version
  unfold rawOf
  cases himpression : event.impressionId with
  | none =>
    simp only [hclient, hpost, hsession, Option.bind_eq_bind, Option.bind_some]
    exact ⟨_, rfl, rfl, hversion, rfl, rfl⟩
  | some text =>
    obtain ⟨id, hid⟩ := Option.isSome_iff_exists.mp (h.impressionId text himpression)
    simp only [hclient, hpost, hsession, hid, Option.map_some, Option.bind_eq_bind, Option.bind_some]
    exact ⟨_, rfl, rfl, hversion, rfl, rfl⟩

omit [FloorRing K] in
theorem Shaped.dwellMs_le {eventType : EventType} {dwellMs : Option Int}
    {metadata : List (String × MetaValue K)}
    (h : Shaped parseUuid qualifiedReadMs eventType dwellMs metadata) :
    0 ≤ dwellMs.getD 0 ∧ dwellMs.getD 0 ≤ Ingestion.maxDwellMs := by
  cases h with
  | visible ratio hlow hhigh => decide
  | view trigger durationMs visitId hnonneg hmax hlong hvisit => exact ⟨hnonneg, hmax⟩
  | click => decide
  | dwell trigger durationMs visitId hnonneg hmax hvisit => exact ⟨hnonneg, hmax⟩

omit [FloorRing K] in
/-- **What can be sent is accepted.** -/
theorem Sendable.accepted (hreads : Reads parseUuid read) {event : BehaviorEvent K}
    (h : Sendable parseUuid qualifiedReadMs event) :
    Accepted parseUuid read qualifiedReadMs event := by
  have hread : ∃ raw, rawOf parseUuid read event = some raw ∧ _ := h.exists_rawOf
  obtain ⟨raw, hraw, htype, hversion, hdwell, hmetadata⟩ := hread
  obtain ⟨⟨dwellMs, qualified⟩, hkind⟩ := validateKind_of_shaped hreads h.shape
  refine ⟨raw, hraw, fun index now id => ?_⟩
  unfold validateBehaviorEvent
  rw [hmetadata, hdwell, htype, hversion, refuseIf_of_not (by decide),
    refuseIf_of_not (not_not.mpr h.shape.dwellMs_le)]
  have hsize : Ingestion.refuseIf _ "metadata_too_large" "metadata must not exceed 8192 bytes" = .ok () :=
    refuseIf_of_not (Nat.not_lt.mpr (size_of_shaped hreads h.shape))
  simp only [Json.asObject, Lib.except_bind_eq_ok]
  exact ⟨_, (), trivial, (), trivial, (), hsize, _, hkind, rfl⟩

end Validate

end Oecophylla.Frontend.Acceptable
