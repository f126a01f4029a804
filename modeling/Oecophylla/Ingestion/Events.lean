import Oecophylla.Ingestion.Validate

namespace Oecophylla.Ingestion

/-!
# Envelopes of the telemetry events — `interaction-service/src/events.rs`

An envelope is written to the outbox in the transaction that stores the event, and its
`event_id` is the identity that the outbox and the consumers deduplicate by.

* `clickEnvelope`, `dwellEnvelope`, `viewObservedEnvelope`, `viewedEnvelope`,
  `qualifiedReadEnvelope` — one constructor function for each kind;
* `featureEventEnvelope` — the envelope of a qualified signal under the configured version;
* `telemetryEnvelope` — the choice the handler makes for a stored event.
-/

/-- `BehaviorTelemetryData`. -/
structure BehaviorTelemetryData where
  userId : Uuid
  postId : Uuid
  clientEventId : Uuid
  behaviorEventId : Uuid
  impressionId : Option Uuid
  sessionId : Option Uuid
  occurredAt : Instant
  deriving DecidableEq, Repr

/-- `QualifiedReadData`. -/
structure QualifiedReadData extends BehaviorTelemetryData where
  visitId : Option Uuid
  durationMs : Int
  sourceEventType : String
  deriving DecidableEq, Repr

/-- The data of an envelope. -/
inductive EventData where
  | telemetry (data : BehaviorTelemetryData)
  | qualifiedRead (data : QualifiedReadData)
  deriving DecidableEq, Repr

/-- `Envelope<T>`. -/
structure Envelope where
  eventId : Uuid
  eventType : String
  eventVersion : Nat
  occurredAt : Instant
  producer : String
  data : EventData
  deriving DecidableEq, Repr

/-- An envelope whose identity is the row of the behavior event. -/
def rowEnvelope (eventType : String) (data : BehaviorTelemetryData) : Envelope where
  eventId := data.behaviorEventId
  eventType := eventType
  eventVersion := 1
  occurredAt := data.occurredAt
  producer := "interaction-service"
  data := .telemetry data

/-- `viewed_envelope`. -/
def viewedEnvelope : BehaviorTelemetryData → Envelope := rowEnvelope "viewed"

/-- `view_observed_envelope`. -/
def viewObservedEnvelope : BehaviorTelemetryData → Envelope := rowEnvelope "view_observed"

/-- `click_envelope`. -/
def clickEnvelope : BehaviorTelemetryData → Envelope := rowEnvelope "click"

/-- `dwell_envelope`. -/
def dwellEnvelope : BehaviorTelemetryData → Envelope := rowEnvelope "dwell"

/-- The identity of a qualified read: the impression, else the visit, else the row. -/
def QualifiedReadData.identity (data : QualifiedReadData) : Uuid :=
  (data.impressionId.or data.visitId).getD data.behaviorEventId

/-- `qualified_read_envelope`. -/
def qualifiedReadEnvelope (data : QualifiedReadData) : Envelope where
  eventId := data.identity
  eventType := "qualified_read"
  eventVersion := 2
  occurredAt := data.occurredAt
  producer := "interaction-service"
  data := .qualifiedRead data

/-- `feature_event_envelope(feature_event_version, data)`. -/
def featureEventEnvelope (featureEventVersion : String) (data : QualifiedReadData) :
    Option Envelope :=
  if featureEventVersion = "v2" then some (qualifiedReadEnvelope data)
  else if featureEventVersion ≠ "v1" ∨ data.sourceEventType ≠ "view" then none
  else some (viewedEnvelope data.toBehaviorTelemetryData)

/-- The envelope of a stored event; `data` has what every envelope reads of it. -/
def telemetryEnvelope (featureEventVersion : String) (qualified : Bool) (data : QualifiedReadData) :
    Option Envelope :=
  if data.sourceEventType = "click" then some (clickEnvelope data.toBehaviorTelemetryData)
  else if qualified ∧ data.sourceEventType = "dwell" ∧ featureEventVersion = "v1" then
    some (dwellEnvelope data.toBehaviorTelemetryData)
  else if qualified then featureEventEnvelope featureEventVersion data
  else if data.sourceEventType = "view" then
    some (viewObservedEnvelope data.toBehaviorTelemetryData)
  else none

/-- An envelope carries the user and the post of the event. -/
def EventData.telemetryData : EventData → BehaviorTelemetryData
  | .telemetry data => data
  | .qualifiedRead data => data.toBehaviorTelemetryData

theorem telemetryData_of_telemetryEnvelope {featureEventVersion : String} {qualified : Bool}
    {data : QualifiedReadData} {e : Envelope}
    (h : telemetryEnvelope featureEventVersion qualified data = some e) :
    e.data.telemetryData = data.toBehaviorTelemetryData := by
  unfold telemetryEnvelope featureEventEnvelope at h
  split_ifs at h <;>
    (rw [Option.some.injEq] at h; subst h; rfl)

end Oecophylla.Ingestion
