import Oecophylla.Label.Rust

namespace Oecophylla.Ingestion

/-!
# Validating a telemetry event — `interaction-service/src/handlers.rs`

* `RawBehaviorEvent` — a request item after `serde_json::from_value`;
* `validateBehaviorEvent` — the validator, with the codes and messages of its errors;
* `validateBehaviorEvent_eq_ok` — what an accepted event looks like;
* `validateView_eq_ok`, `validateDwell_eq_ok` — the duration and the flag it gets.

`Uuid::parse_str` belongs to a package and is a parameter; the id that `Uuid::now_v7` draws
is an argument.  Instants are microseconds, which is what the database keeps of them.
-/

/-- A UUID. -/
abbrev Uuid := Nat

/-- An instant, in microseconds. -/
abbrev Instant := Int

/-- `MAX_BEHAVIOR_BATCH_SIZE`. -/
def maxBehaviorBatchSize : Nat := 100

/-- `MAX_DWELL_MS`. -/
def maxDwellMs : Int := 1800000

/-- `MIN_QUALIFIED_VIEW_MS`. -/
def minQualifiedViewMs : Int := 5000

/-- `MAX_METADATA_BYTES`. -/
def maxMetadataBytes : Nat := 8192

/-- A request item. -/
structure RawBehaviorEvent where
  clientEventId : Uuid
  postId : Uuid
  impressionId : Option Uuid
  sessionId : Option Uuid
  eventType : String
  eventVersion : Option String
  dwellMs : Option Int
  metadata : Json
  occurredAt : Instant

/-- `repo::NewBehaviorEvent`; the metadata is the document whose text is inserted. -/
structure NewBehaviorEvent where
  id : Uuid
  clientEventId : Uuid
  postId : Uuid
  impressionId : Option Uuid
  sessionId : Option Uuid
  eventType : String
  dwellMs : Option Int
  metadata : Json
  occurredAt : Instant

/-- An accepted item. -/
structure ValidatedBehaviorEvent where
  index : Nat
  event : NewBehaviorEvent
  qualifiedSignal : Bool
  visitId : Option Uuid

/-- Why an item is refused. -/
structure EventValidationError where
  code : String
  message : String
  deriving DecidableEq, Repr

/-- Refuse an item when a condition holds. -/
def refuseIf (c : Prop) [Decidable c] (code message : String) : Except EventValidationError Unit :=
  if c then .error ⟨code, message⟩ else .ok ()

@[simp] theorem refuseIf_bind_eq_ok {β : Type} {c : Prop} [Decidable c] {code message : String}
    {f : Unit → Except EventValidationError β} {b : β} :
    (refuseIf c code message >>= f) = .ok b ↔ ¬ c ∧ f () = .ok b := by
  unfold refuseIf
  by_cases hc : c <;> simp [hc, bind, Except.bind]

/-- `require_metadata_keys(metadata, allowed)`: the first key, in the order of the map, that is
    not allowed. -/
def requireMetadataKeys (metadata : Object) (allowed : List String) :
    Except EventValidationError Unit :=
  match (Lib.stableSort compare (metadata.map Prod.fst)).find? fun key => key ∉ allowed with
  | some key =>
    .error ⟨"unknown_metadata_key", "metadata key " ++ key ++ " is not allowed"⟩
  | none => .ok ()

theorem requireMetadataKeys_eq_ok {metadata : Object} {allowed : List String} {u : Unit}
    (h : requireMetadataKeys metadata allowed = .ok u) :
    ∀ key ∈ metadata.map Prod.fst, key ∈ allowed := by
  unfold requireMetadataKeys at h
  split at h
  · simp at h
  · next hnone =>
    intro key hkey
    by_contra hno
    rw [List.find?_eq_none] at hnone
    exact hnone key (Lib.mem_stableSort.mpr hkey) (by simpa using hno)

/-- A key that is not allowed is absent. -/
theorem get_eq_none_of_requireMetadataKeys {metadata : Object} {allowed : List String} {u : Unit}
    {name : String} (h : requireMetadataKeys metadata allowed = .ok u) (hname : name ∉ allowed) :
    metadata.get name = none := by
  have hkeys := requireMetadataKeys_eq_ok h
  unfold Object.get
  rw [List.lookup_eq_none_iff]
  intro f hf
  have hne : name ≠ f.1 := by
    intro heq
    exact hname (heq ▸ hkeys f.1 (List.mem_map_of_mem hf))
  simpa using hne

/-- Whether a number is in `0.5..=1.0`, as a double. -/
def inHalfToOne : Json → Option Bool
  | .int z => some (decide (z = 1))
  | .float d =>
    let scale := 10 ^ (-d.exponent).toNat
    let n := d.digits * 10 ^ d.exponent.toNat
    some (!d.negative && decide (scale ≤ 2 * n ∧ n ≤ scale))
  | _ => none

section Validate

variable (parseUuid : String → Option Uuid)

/-- The visit id of the metadata. -/
def visitIdOf (metadata : Object) : Option Uuid :=
  ((metadata.get "visit_id").bind Json.asStr).bind parseUuid

/-- `validate_visit_id(metadata)`. -/
def validateVisitId (metadata : Object) : Except EventValidationError Unit :=
  refuseIf ((metadata.get "visit_id").isSome ∧ (visitIdOf parseUuid metadata).isNone)
    "invalid_metadata" "visit_id must be a UUID string"

/-- The branch `"visible"`. -/
def validateVisible (metadata : Object) (dwellMs : Option Int) :
    Except EventValidationError (Option Int × Bool) := do
  requireMetadataKeys metadata ["viewport_ratio"]
  refuseIf dwellMs.isSome "invalid_dwell_ms" "visible must not include dwell_ms"
  match (metadata.get "viewport_ratio").bind inHalfToOne with
  | none => .error ⟨"invalid_metadata", "visible requires numeric viewport_ratio"⟩
  | some false => .error ⟨"invalid_metadata", "viewport_ratio must be between 0.5 and 1.0"⟩
  | some true => .ok (dwellMs, false)

/-- `metadata["continuous_visible_ms"]` as an `i64`, else `0`. -/
def continuousMs (metadata : Object) : Int :=
  ((metadata.get "continuous_visible_ms").bind Json.asI64).getD 0

/-- The branch `"view"`: the measured duration, and whether it qualifies. -/
def validateView (metadata : Object) (labelVersion : String) (dwellMs : Option Int)
    (qualifiedReadMs : Int) : Except EventValidationError (Option Int × Bool) := do
  requireMetadataKeys metadata ["continuous_visible_ms", "trigger", "visit_id"]
  validateVisitId parseUuid metadata
  match (metadata.get "trigger").bind Json.asStr with
  | none => .error ⟨"invalid_metadata", "view requires trigger"⟩
  | some trigger => do
    refuseIf (trigger ∉ ["feed", "detail"]) "invalid_metadata" "view trigger must be feed or detail"
    refuseIf (¬ (0 ≤ continuousMs metadata ∧ continuousMs metadata ≤ maxDwellMs))
      "invalid_metadata" "continuous_visible_ms is out of range"
    refuseIf (labelVersion = "v2" ∧ dwellMs ≠ some (continuousMs metadata))
      "inconsistent_duration" "v2 view dwell_ms must equal continuous_visible_ms"
    let measuredMs := max (continuousMs metadata) (dwellMs.getD 0)
    let minimumViewMs := if labelVersion = "v2" then qualifiedReadMs else minQualifiedViewMs
    refuseIf (trigger = "feed" ∧ measuredMs < minimumViewMs) "unqualified_view"
      ("feed view requires at least " ++ toString minimumViewMs ++ " ms continuous visibility")
    .ok (some measuredMs, decide (qualifiedReadMs ≤ measuredMs))

/-- The branch `"click"`. -/
def validateClick (metadata : Object) (dwellMs : Option Int) :
    Except EventValidationError (Option Int × Bool) := do
  requireMetadataKeys metadata ["target"]
  refuseIf (dwellMs.isSome ∨ (metadata.get "target").bind Json.asStr ≠ some "post_detail")
    "invalid_metadata" "click requires target=post_detail and no dwell_ms"
  .ok (dwellMs, false)

/-- The branch `"dwell"`. -/
def validateDwell (metadata : Object) (dwellMs : Option Int) (qualifiedReadMs : Int) :
    Except EventValidationError (Option Int × Bool) := do
  requireMetadataKeys metadata ["trigger", "visit_id"]
  validateVisitId parseUuid metadata
  refuseIf dwellMs.isNone "invalid_dwell_ms" "dwell requires dwell_ms"
  refuseIf ((metadata.get "trigger").bind Json.asStr
      ∉ [some "viewport_exit", some "page_hidden", some "destroy"])
    "invalid_metadata" "dwell trigger must be viewport_exit, page_hidden, or destroy"
  .ok (dwellMs, decide (qualifiedReadMs ≤ dwellMs.getD 0))

/-- The `match` over the event type. -/
def validateKind (metadata : Object) (eventType labelVersion : String) (dwellMs : Option Int)
    (qualifiedReadMs : Int) : Except EventValidationError (Option Int × Bool) :=
  if eventType = "visible" then validateVisible metadata dwellMs
  else if eventType = "view" then
    validateView parseUuid metadata labelVersion dwellMs qualifiedReadMs
  else if eventType = "click" then validateClick metadata dwellMs
  else if eventType = "dwell" then validateDwell parseUuid metadata dwellMs qualifiedReadMs
  else .error ⟨"invalid_event_type", "event_type must be visible, view, click, or dwell"⟩

/-- The label version of an item. -/
def RawBehaviorEvent.labelVersion (raw : RawBehaviorEvent) : String := raw.eventVersion.getD "v1"

/-- Microseconds in an hour. -/
def hour : Int := 3600000000

/-- Microseconds in a minute. -/
def minute : Int := 60000000

/-- `validate_behavior_event(index, raw, now, qualified_read_ms)`; `id` is the drawn id. -/
def validateBehaviorEvent (index : Nat) (raw : RawBehaviorEvent) (now : Instant)
    (qualifiedReadMs : Int) (id : Uuid) : Except EventValidationError ValidatedBehaviorEvent := do
  refuseIf (raw.labelVersion ∉ ["v1", "v2"]) "invalid_event_version"
    "event_version must be v1 or v2"
  refuseIf (¬ (0 ≤ raw.dwellMs.getD 0 ∧ raw.dwellMs.getD 0 ≤ maxDwellMs)) "invalid_dwell_ms"
    "dwell_ms must be between 0 and 1800000"
  match raw.metadata.asObject with
  | none => .error ⟨"invalid_metadata", "metadata must be a JSON object"⟩
  | some metadata => do
    refuseIf (maxMetadataBytes < (Label.Rust.serde.write raw.metadata).utf8ByteSize)
      "metadata_too_large" "metadata must not exceed 8192 bytes"
    let (dwellMs, qualifiedSignal) ←
      validateKind parseUuid metadata raw.eventType raw.labelVersion raw.dwellMs qualifiedReadMs
    .ok {
      index
      event := {
        id
        clientEventId := raw.clientEventId
        postId := raw.postId
        impressionId := raw.impressionId
        sessionId := raw.sessionId
        eventType := raw.eventType
        dwellMs
        metadata := .obj (Object.set metadata "event_version" (.str raw.labelVersion))
        occurredAt := min (max raw.occurredAt (now - 24 * hour)) (now + 5 * minute) }
      qualifiedSignal
      visitId := visitIdOf parseUuid metadata }

/-! ### Accepted events -/

variable {parseUuid}

/-- **An accepted event.** -/
theorem validateBehaviorEvent_eq_ok {index : Nat} {raw : RawBehaviorEvent} {now : Instant}
    {qualifiedReadMs : Int} {id : Uuid} {v : ValidatedBehaviorEvent}
    (h : validateBehaviorEvent parseUuid index raw now qualifiedReadMs id = .ok v) :
    (raw.labelVersion = "v1" ∨ raw.labelVersion = "v2")
      ∧ (0 ≤ raw.dwellMs.getD 0 ∧ raw.dwellMs.getD 0 ≤ maxDwellMs)
      ∧ ∃ metadata dwellMs, raw.metadata = .obj metadata
        ∧ validateKind parseUuid metadata raw.eventType raw.labelVersion raw.dwellMs
          qualifiedReadMs = .ok (dwellMs, v.qualifiedSignal)
        ∧ v = ⟨index, ⟨id, raw.clientEventId, raw.postId, raw.impressionId, raw.sessionId,
            raw.eventType, dwellMs,
            .obj (Object.set metadata "event_version" (.str raw.labelVersion)),
            min (max raw.occurredAt (now - 24 * hour)) (now + 5 * minute)⟩,
          v.qualifiedSignal, visitIdOf parseUuid metadata⟩ := by
  unfold validateBehaviorEvent at h
  rw [refuseIf_bind_eq_ok, refuseIf_bind_eq_ok] at h
  obtain ⟨hversion, hdwell, h⟩ := h
  cases hm : raw.metadata.asObject with
  | none => simp [hm] at h
  | some metadata =>
    have hmetadata : raw.metadata = .obj metadata := by
      cases hraw : raw.metadata <;> simp_all [Json.asObject]
    simp only [hm] at h
    rw [refuseIf_bind_eq_ok, Lib.except_bind_eq_ok] at h
    obtain ⟨-, ⟨dwellMs, qualified⟩, hkind, h⟩ := h
    rw [Except.ok.injEq] at h
    subst h
    have hversion' := not_not.mp hversion
    refine ⟨by simpa using hversion', not_not.mp hdwell, metadata, dwellMs, hmetadata, hkind, rfl⟩

/-- The position of an event does not matter. -/
theorem validateBehaviorEvent_index {index : Nat} {raw : RawBehaviorEvent} {now : Instant}
    {qualifiedReadMs : Int} {id : Uuid} {v : ValidatedBehaviorEvent}
    (h : validateBehaviorEvent parseUuid index raw now qualifiedReadMs id = .ok v) (j : Nat) :
    validateBehaviorEvent parseUuid j raw now qualifiedReadMs id = .ok { v with index := j } := by
  unfold validateBehaviorEvent at h ⊢
  rw [refuseIf_bind_eq_ok, refuseIf_bind_eq_ok] at h ⊢
  obtain ⟨hversion, hdwell, h⟩ := h
  refine ⟨hversion, hdwell, ?_⟩
  cases hm : raw.metadata.asObject with
  | none => simp [hm] at h
  | some metadata =>
    simp only [hm] at h ⊢
    rw [refuseIf_bind_eq_ok, Lib.except_bind_eq_ok] at h ⊢
    obtain ⟨hlength, r, hkind, h⟩ := h
    refine ⟨hlength, r, hkind, ?_⟩
    rw [Except.ok.injEq] at h
    rw [← h]

/-- An accepted view. -/
theorem validateView_eq_ok {metadata : Object} {labelVersion : String} {dwellMs : Option Int}
    {qualifiedReadMs : Int} {r : Option Int × Bool}
    (h : validateView parseUuid metadata labelVersion dwellMs qualifiedReadMs = .ok r) :
    (0 ≤ continuousMs metadata ∧ continuousMs metadata ≤ maxDwellMs)
      ∧ (labelVersion = "v2" → dwellMs = some (continuousMs metadata))
      ∧ r = (some (max (continuousMs metadata) (dwellMs.getD 0)),
        decide (qualifiedReadMs ≤ max (continuousMs metadata) (dwellMs.getD 0))) := by
  unfold validateView validateVisitId at h
  rw [Lib.except_bind_eq_ok] at h
  obtain ⟨_, -, h⟩ := h
  rw [refuseIf_bind_eq_ok] at h
  obtain ⟨-, h⟩ := h
  cases htrigger : (metadata.get "trigger").bind Json.asStr with
  | none => simp [htrigger] at h
  | some trigger =>
    simp only [htrigger, refuseIf_bind_eq_ok, Except.ok.injEq] at h
    obtain ⟨-, hrange, hversion, -, rfl⟩ := h
    refine ⟨not_not.mp hrange, fun hv2 => ?_, rfl⟩
    by_contra hne
    exact hversion ⟨hv2, hne⟩

/-- An accepted dwell: its metadata has no continuous duration. -/
theorem validateDwell_eq_ok {metadata : Object} {dwellMs : Option Int} {qualifiedReadMs : Int}
    {r : Option Int × Bool}
    (h : validateDwell parseUuid metadata dwellMs qualifiedReadMs = .ok r) :
    metadata.get "continuous_visible_ms" = none ∧ dwellMs.isSome
      ∧ r = (dwellMs, decide (qualifiedReadMs ≤ dwellMs.getD 0)) := by
  unfold validateDwell validateVisitId at h
  rw [Lib.except_bind_eq_ok] at h
  obtain ⟨_, hkeys, h⟩ := h
  simp only [refuseIf_bind_eq_ok, Except.ok.injEq] at h
  obtain ⟨-, hdwell, -, rfl⟩ := h
  refine ⟨get_eq_none_of_requireMetadataKeys hkeys (by decide), ?_, rfl⟩
  simpa [Option.isNone_iff_eq_none, Option.isSome_iff_ne_none] using hdwell

end Validate

end Oecophylla.Ingestion
