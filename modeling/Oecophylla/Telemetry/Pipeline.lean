import Oecophylla.Ingestion.Handler
import Oecophylla.Lib.Run
import Oecophylla.Preference.Replay
import Oecophylla.Python.UuidText

namespace Oecophylla.Telemetry

open Ingestion
open Lib (Taken insertAllNew)
open Preference (CanonicalRow PreferenceEvent)

/-!
# Telemetry from the request to the preference replay

* `State`, `step` — requests are ingested, outbox rows are sent and cleaned up, and the feature
  worker claims receipts for what was sent;
* `contributionsOf` — what the preference replay makes of the stored events about a post;
* `Records`, `records` — what is recorded for one user and one post;
* `Submission`, `view` — what an action submits for them;
* `alone` — how the records develop when nobody else is there.

Requests are atomic, and one that fails leaves nothing.  Rows of the worker whose event fails its
checks are among those that it leaves out of a batch.
-/

/-- A row of `feature_event_receipts`, with the envelope that claimed it. -/
structure Receipt where
  eventId : Uuid
  userId : Uuid
  eventType : String
  occurredAt : Instant
  envelope : Envelope
  deriving DecidableEq, Repr

/-- The tables, and the envelopes that Kafka has. -/
structure State where
  db : Database
  sent : List Envelope
  receipts : List Receipt

/-- An action. -/
inductive Action where
  | ingest (req : Request)
  /-- `dispatch_next` sends a row of the outbox. -/
  | dispatch (row : OutboxRow)
  /-- `cleanup_batch` deletes a row that was sent long ago. -/
  | clean (row : OutboxRow)
  /-- `CLAIM_RECEIPTS_SQL` for the events of a user. -/
  | flush (user : Uuid) (envelopes : List Envelope)

/-- The receipt that an envelope claims. -/
def receiptOf (user : Uuid) (e : Envelope) : Receipt :=
  ⟨e.eventId, user, e.eventType, e.occurredAt, e⟩

/-- The user of an envelope. -/
def userOf (e : Envelope) : Uuid := e.data.telemetryData.userId

/-- The ids that `Uuid::now_v7` draws are new UUIDs. -/
def Drawn (db : Database) (req : Request) : Prop :=
  req.FreshIds db ∧ ∀ item ∈ req.items, item.id < 2 ^ 128

instance (db : Database) (req : Request) : Decidable (Drawn db req) :=
  inferInstanceAs (Decidable (_ ∧ ∀ item ∈ req.items, _))

section Pipeline

variable (cfg : Config) (pkg : Packages)

/-- The tables after a request. -/
def ingested (db : Database) (req : Request) : Database :=
  match ingestBehaviorEvents cfg pkg db req with
  | .ok r => r.1
  | .error _ => db

/-- One action. -/
def step (s : State) : Action → Option State
  | .ingest req => if Drawn s.db req then some { s with db := ingested cfg pkg s.db req } else none
  | .dispatch row =>
    if row ∈ s.db.outbox then some { s with sent := s.sent ++ [row.payload] } else none
  | .clean row =>
    if row ∈ s.db.outbox ∧ row.payload ∈ s.sent then
      some { s with db := { s.db with outbox := s.db.outbox.filter fun r => r ≠ row } }
    else none
  | .flush user envelopes =>
    if ∀ e ∈ envelopes, e ∈ s.sent ∧ userOf e = user then
      some { s with receipts :=
        insertAllNew Receipt.eventId s.receipts (envelopes.map (receiptOf user)) }
    else none

section Step

variable {cfg pkg} {s t : State}

theorem step_ingest {req : Request} : step cfg pkg s (.ingest req) = some t ↔
    Drawn s.db req ∧ { s with db := ingested cfg pkg s.db req } = t :=
  Option.ite_none_right_eq_some.trans (by rw [Option.some.injEq])

theorem step_dispatch {row : OutboxRow} : step cfg pkg s (.dispatch row) = some t ↔
    row ∈ s.db.outbox ∧ { s with sent := s.sent ++ [row.payload] } = t :=
  Option.ite_none_right_eq_some.trans (by rw [Option.some.injEq])

theorem step_clean {row : OutboxRow} : step cfg pkg s (.clean row) = some t ↔
    (row ∈ s.db.outbox ∧ row.payload ∈ s.sent)
      ∧ { s with db := { s.db with outbox := s.db.outbox.filter fun r => r ≠ row } } = t :=
  Option.ite_none_right_eq_some.trans (by rw [Option.some.injEq])

theorem step_flush {user : Uuid} {envelopes : List Envelope} :
    step cfg pkg s (.flush user envelopes) = some t ↔
      (∀ e ∈ envelopes, e ∈ s.sent ∧ userOf e = user)
        ∧ { s with
            receipts := insertAllNew Receipt.eventId s.receipts (envelopes.map (receiptOf user)) }
          = t :=
  Option.ite_none_right_eq_some.trans (by rw [Option.some.injEq])

end Step

/-! ### The preference replay -/

/-- `metadata ->> name`, for a text. -/
def textField (metadata : Json) (name : String) : Option String :=
  match metadata.asObject.bind fun fields => Object.get fields name with
  | some (.str text) => some text
  | _ => none

/-- A stored event, as the feature worker reads it; `topic_snapshot` is never null. -/
def canonicalRow (row : BehaviorRow) : CanonicalRow where
  eventId := Oecophylla.Python.uuidText row.id
  postId := Oecophylla.Python.uuidText row.postId
  impressionId := row.impressionId.map Oecophylla.Python.uuidText
  sessionId := row.sessionId.map Oecophylla.Python.uuidText
  eventType := row.eventType
  dwellMs := row.dwellMs
  readTrigger := textField row.metadata "trigger"
  visitId := textField row.metadata "visit_id"
  topicSnapshot := some (row.topicSnapshot.map some)
  occurredAt := row.occurredAt
  topics := none
  tags := none

/-- The events of a user, as the replay gets them. -/
def eventsOf (s : State) (user : Uuid) : List PreferenceEvent :=
  Preference.canonicalPreferenceEvents
    ((s.db.behaviorEvents.filter fun row => row.userId = user).map canonicalRow)

/-- The contributions of the events of a user about a post. -/
def contributionsOf (qualifiedReadMs : Int) (now : Instant) (s : State) (user post : Uuid) :
    List (PreferenceEvent × String) :=
  (Preference.contributions (Preference.replay (eventsOf s user) none now qualifiedReadMs)).filter
    fun c => c.1.postId = Oecophylla.Python.uuidText post

/-! ### One user and one post -/

variable (user post : Uuid)

/-- An event of the user about the post. -/
def mineEnvelope (e : Envelope) : Bool :=
  decide (e.data.telemetryData.userId = user ∧ e.data.telemetryData.postId = post)

/-- A stored event of the user about the post. -/
def mineRow (row : BehaviorRow) : Bool := decide (row.userId = user ∧ row.postId = post)

/-- An outbox row of the user about the post. -/
def mineOutbox (row : OutboxRow) : Bool := mineEnvelope user post row.payload

/-- A receipt of the user about the post. -/
def mineReceipt (r : Receipt) : Bool := mineEnvelope user post r.envelope

/-- What is recorded for a user and a post. -/
structure Records where
  rows : List BehaviorRow
  outbox : List OutboxRow
  sent : List Envelope
  receipts : List Receipt

/-- The records of the user about the post. -/
def records (s : State) : Records where
  rows := s.db.behaviorEvents.filter (mineRow user post)
  outbox := s.db.outbox.filter (mineOutbox user post)
  sent := s.sent.filter (mineEnvelope user post)
  receipts := s.receipts.filter (mineReceipt user post)

/-- What is submitted for a user and a post. -/
inductive Submission where
  /-- The number of items, the time of the transaction and the accepted events. -/
  | submit (count : Nat) (dbNow : Instant) (events : List ValidatedBehaviorEvent)
  | dispatch (row : OutboxRow)
  | clean (row : OutboxRow)
  | flush (envelopes : List Envelope)

/-- An item that is about another post. -/
def elsewhere (item : Item) : Bool :=
  match pkg.fromValue item.value with
  | .ok raw => decide (raw.postId ≠ post)
  | .error _ => false

/-- An event without its position in the request. -/
def forget (v : ValidatedBehaviorEvent) : ValidatedBehaviorEvent := { v with index := 0 }

/-- The accepted events of a request about the post. -/
def mineEvents (req : Request) : List ValidatedBehaviorEvent :=
  ((req.parsed cfg pkg).filter fun v => decide (v.event.postId = post)).map forget

/-- The number of items of a request that are not about another post. -/
def mineCount (req : Request) : Nat := req.items.countP fun item => !elsewhere pkg post item

/-- What an action submits. -/
def view : Action → Option Submission
  | .ingest req =>
    if req.userId = user ∧ mineEvents cfg pkg post req ≠ [] then
      some (.submit (mineCount pkg post req) req.dbNow (mineEvents cfg pkg post req))
    else none
  | .dispatch row => if mineOutbox user post row then some (.dispatch row) else none
  | .clean row => if mineOutbox user post row then some (.clean row) else none
  | .flush _ envelopes =>
    if envelopes.filter (mineEnvelope user post) ≠ [] then
      some (.flush (envelopes.filter (mineEnvelope user post)))
    else none

/-! ### The records of one user and one post, alone -/

/-- The events that are kept: the first one of each client event id, when its post exists and it
    owns its impression. -/
def keptAlone (db : Database) (events : List ValidatedBehaviorEvent) : List ValidatedBehaviorEvent :=
  (retainFirst events).filter fun v =>
    (db.post v.event.postId).isSome && decide (Owned db user v.event)

/-- The rows of the kept events. -/
def rowsAlone (db : Database) (dbNow : Instant) (events : List ValidatedBehaviorEvent) :
    List BehaviorRow :=
  ((keptAlone user db events).map fun v => v.event).filterMap (rowFor db user dbNow)

/-- The casts and the checks accept all kept events, and there are not too many items. -/
def AcceptedAlone (db : Database) (count : Nat) (dbNow : Instant)
    (events : List ValidatedBehaviorEvent) : Prop :=
  count ≤ maxBehaviorBatchSize ∧ ∀ v ∈ keptAlone user db events, Insertable db user dbNow v.event

instance (db : Database) (count : Nat) (dbNow : Instant) (events : List ValidatedBehaviorEvent) :
    Decidable (AcceptedAlone user db count dbNow events) :=
  inferInstanceAs (Decidable (_ ∧ ∀ v ∈ keptAlone user db events, _))

/-- The rows that are new. -/
def newAlone (db : Database) (dbNow : Instant) (events : List ValidatedBehaviorEvent)
    (rows : List BehaviorRow) : List BehaviorRow :=
  (rowsAlone user db dbNow events).filter fun row =>
    ¬ Taken BehaviorRow.clientEventId rows row.clientEventId

/-- The outbox rows of some stored rows. -/
def outboxAlone (items : List ValidatedBehaviorEvent) (rows : List BehaviorRow) : List OutboxRow :=
  (rows.filterMap (outboxMessage cfg user items)).map fun m =>
    ⟨m.2.eventId, topicInteractions, m.1, m.2⟩

/-- **Alone.**  How the records develop when nobody else submits anything; `db` has the posts and
    the impressions. -/
def alone (db : Database) (r : Records) : Submission → Records
  | .submit count dbNow events =>
    if AcceptedAlone user db count dbNow events then
      let rows := newAlone user db dbNow events r.rows
      { r with
        rows := r.rows ++ rows
        outbox := insertAllNew OutboxRow.eventId r.outbox
          (outboxAlone cfg user (keptAlone user db events) rows) }
    else r
  | .dispatch row => { r with sent := r.sent ++ [row.payload] }
  | .clean row => { r with outbox := r.outbox.filter fun x => x ≠ row }
  | .flush envelopes =>
    { r with receipts := insertAllNew Receipt.eventId r.receipts (envelopes.map (receiptOf user)) }

end Pipeline

end Oecophylla.Telemetry
