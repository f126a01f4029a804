import Oecophylla.Ingestion.Database

namespace Oecophylla.Ingestion

open Lib (Taken insertAllNew newRows)

/-!
# The telemetry endpoint — `handlers.rs`, `ingest_behavior_events`

One request runs in one transaction.  `serde_json::from_value` for the request item is
generated code and a parameter, as is `Uuid::parse_str`.

* `ingestBehaviorEvents` — the handler after authentication;
* `Request.ready` — the items that are valid, not repeated and whose post exists;
* `Request.retained` — those that also pass the impression check;
* `exists_ingestBehaviorEvents_eq_ok`, `of_ingestBehaviorEvents_eq_ok` — when a request with
  distinct client event ids succeeds, and what it leaves behind.
-/

/-- What the handler is configured with. -/
structure Config where
  qualifiedReadMs : Int
  featureEventVersion : String
  behaviorViewCounterEnabled : Bool

/-- The functions of packages that the handler calls. -/
structure Packages where
  /-- `serde_json::from_value::<RawBehaviorEvent>`. -/
  fromValue : Json → Except String RawBehaviorEvent
  /-- `Uuid::parse_str`. -/
  parseUuid : String → Option Uuid

/-- An item of a request, with the id that `Uuid::now_v7` draws for it. -/
structure Item where
  value : Json
  id : Uuid

/-- An authenticated request; `now` is the clock of the service, `dbNow` the one of the
    transaction. -/
structure Request where
  userId : Uuid
  now : Instant
  dbNow : Instant
  items : List Item

/-- `BehaviorEventError`. -/
structure BehaviorEventError where
  index : Nat
  code : String
  message : String
  deriving DecidableEq, Repr

/-- `BehaviorBatchResponse`. -/
structure BehaviorBatchResponse where
  accepted : Nat
  duplicate : Nat
  rejected : Nat
  errors : List BehaviorEventError
  deriving DecidableEq, Repr

/-- `AppError`, as far as this handler returns it. -/
inductive AppError where
  | validation (field message : String)
  | db (e : DbError)
  deriving DecidableEq, Repr

section Handler

variable (cfg : Config) (pkg : Packages)

/-- Read and validate one item. -/
def readItem (now : Instant) (index : Nat) (item : Item) :
    Except BehaviorEventError ValidatedBehaviorEvent :=
  match pkg.fromValue item.value with
  | .error message => .error ⟨index, "invalid_event", message⟩
  | .ok raw =>
    match validateBehaviorEvent pkg.parseUuid index raw now cfg.qualifiedReadMs item.id with
    | .error e => .error ⟨index, e.code, e.message⟩
    | .ok event => .ok event

/-- The outcomes of reading the items. -/
def readItems (now : Instant) (items : List Item) :
    List (Except BehaviorEventError ValidatedBehaviorEvent) :=
  items.zipIdx.map fun p => readItem cfg pkg now p.2 p.1

/-- The items that were read. -/
def oks {ε α : Type} (l : List (Except ε α)) : List α := l.filterMap Except.toOption

/-- The items that were not. -/
def errorsOf {ε α : Type} (l : List (Except ε α)) : List ε :=
  l.filterMap fun
    | .error e => some e
    | .ok _ => none

/-- Keep the first item of each client event id. -/
def retainFirst (parsed : List ValidatedBehaviorEvent) : List ValidatedBehaviorEvent :=
  newRows (fun item => item.event.clientEventId) [] parsed

/-- The reference of an item to an impression. -/
def ValidatedBehaviorEvent.reference (item : ValidatedBehaviorEvent) : Option (Uuid × Uuid) :=
  item.event.impressionId.map fun id => (id, item.event.postId)

/-- Whether an item passes the impression check. -/
def impressionAllowed (valid : List Uuid) (item : ValidatedBehaviorEvent) : Bool :=
  match item.event.impressionId with
  | some id => decide (id ∈ valid)
  | none => true

/-- The envelope data of a stored row. -/
def envelopeData (userId : Uuid) (visitId : Option Uuid) (row : BehaviorRow) : QualifiedReadData where
  userId := userId
  postId := row.postId
  clientEventId := row.clientEventId
  behaviorEventId := row.id
  impressionId := row.impressionId
  sessionId := row.sessionId
  visitId := visitId
  occurredAt := row.occurredAt
  durationMs := row.dwellMs.getD 0
  sourceEventType := row.eventType

/-- The outbox message of a stored row.  `items` is what the row's flag and visit id are looked
    up in, by the client event id. -/
def outboxMessage (userId : Uuid) (items : List ValidatedBehaviorEvent) (row : BehaviorRow) :
    Option (Uuid × Envelope) :=
  let mine := items.filter fun item => item.event.clientEventId = row.clientEventId
  (telemetryEnvelope cfg.featureEventVersion (mine.any fun item => item.qualifiedSignal)
    (envelopeData userId (mine.findSome? fun item => item.visitId) row)).map fun e => (row.postId, e)

/-- The items that were read. -/
def Request.parsed (req : Request) : List ValidatedBehaviorEvent :=
  oks (readItems cfg pkg req.now req.items)

/-- The first item of each client event id. -/
def Request.distinct (req : Request) : List ValidatedBehaviorEvent :=
  retainFirst (req.parsed cfg pkg)

/-- Whether the post of an item exists. -/
def postExists (db : Database) (items : List ValidatedBehaviorEvent)
    (item : ValidatedBehaviorEvent) : Bool :=
  decide (item.event.postId ∈ existingPostIds db (items.map fun item => item.event.postId))

/-- The items whose post exists. -/
def Request.ready (db : Database) (req : Request) : List ValidatedBehaviorEvent :=
  (req.distinct cfg pkg).filter (postExists db (req.distinct cfg pkg))

/-- `valid_impressions`. -/
def Request.validImpressions (db : Database) (req : Request) : List Uuid :=
  validImpressionIds db req.userId
    ((req.ready cfg pkg db).filterMap ValidatedBehaviorEvent.reference)

/-- The items that pass the impression check. -/
def Request.retained (db : Database) (req : Request) : List ValidatedBehaviorEvent :=
  (req.ready cfg pkg db).filter (impressionAllowed (req.validImpressions cfg pkg db))

/-- The errors of a request, before they are sorted. -/
def Request.errors (db : Database) (req : Request) : List BehaviorEventError :=
  errorsOf (readItems cfg pkg req.now req.items)
    ++ ((req.distinct cfg pkg).filter fun item => !postExists db (req.distinct cfg pkg) item).map
      (fun item => ⟨item.index, "post_not_found", "post does not exist"⟩)
    ++ ((req.ready cfg pkg db).filter fun item =>
        !impressionAllowed (req.validImpressions cfg pkg db) item).map
      fun item => ⟨item.index, "impression_mismatch",
        "impression does not belong to the authenticated user and post"⟩

/-- `ingest_behavior_events`. -/
def ingestBehaviorEvents (db : Database) (req : Request) :
    Except AppError (Database × BehaviorBatchResponse) :=
  if req.items = [] ∨ maxBehaviorBatchSize < req.items.length then
    .error (.validation "events" "1..=100 items")
  else
    match insertBehaviorEvents db req.userId req.dbNow
        ((req.retained cfg pkg db).map fun item => item.event) with
    | .error e => .error (.db e)
    | .ok (db', inserted) =>
      let db' := if cfg.behaviorViewCounterEnabled then
        bumpViewCounts db' ((inserted.filter fun row => row.eventType = "view").map
          BehaviorRow.postId) else db'
      let db' := enqueueOutboxEvents db'
        (inserted.filterMap (outboxMessage cfg req.userId (req.retained cfg pkg db)))
      let errors := Lib.stableSort (Lib.compareBy compare BehaviorEventError.index)
        (req.errors cfg pkg db)
      .ok (db', {
        -- `inserted_ids` is a set
        accepted := (inserted.map BehaviorRow.clientEventId).dedup.length
        duplicate := ((req.parsed cfg pkg).length - (req.distinct cfg pkg).length)
          + ((req.retained cfg pkg db).length - inserted.length)
        rejected := errors.length
        errors })

variable {cfg pkg}

/-- **A request that succeeds** has between one and a hundred items and has gone through its
    insert. -/
theorem exists_of_ingestBehaviorEvents_eq_ok {db db' : Database} {req : Request}
    {response : BehaviorBatchResponse}
    (h : ingestBehaviorEvents cfg pkg db req = .ok (db', response)) :
    ∃ db₁ inserted, insertBehaviorEvents db req.userId req.dbNow
          ((req.retained cfg pkg db).map fun item => item.event) = .ok (db₁, inserted)
      ∧ req.items.length ≤ maxBehaviorBatchSize
      ∧ db' = enqueueOutboxEvents
          (if cfg.behaviorViewCounterEnabled then
            bumpViewCounts db₁ ((inserted.filter fun row => row.eventType = "view").map
              BehaviorRow.postId) else db₁)
          (inserted.filterMap (outboxMessage cfg req.userId (req.retained cfg pkg db)))
      ∧ response.accepted = (inserted.map BehaviorRow.clientEventId).dedup.length
      ∧ response.duplicate = ((req.parsed cfg pkg).length - (req.distinct cfg pkg).length)
          + ((req.retained cfg pkg db).length - inserted.length)
      ∧ response.rejected = response.errors.length
      ∧ response.errors = Lib.stableSort (Lib.compareBy compare BehaviorEventError.index)
          (req.errors cfg pkg db) := by
  unfold ingestBehaviorEvents at h
  split at h
  · contradiction
  · next hsize =>
    cases hinsert : insertBehaviorEvents db req.userId req.dbNow
        ((req.retained cfg pkg db).map fun item => item.event) with
    | error e => simp [hinsert] at h
    | ok r =>
      obtain ⟨db₁, inserted⟩ := r
      simp only [hinsert, Except.ok.injEq, Prod.mk.injEq] at h
      obtain ⟨rfl, rfl⟩ := h
      exact ⟨db₁, inserted, rfl, Nat.le_of_not_lt fun hlong => hsize (.inr hlong), rfl, rfl, rfl,
        rfl, rfl⟩

/-! ### The items of a request -/

theorem mem_oks {ε α : Type} {l : List (Except ε α)} {a : α} : a ∈ oks l ↔ .ok a ∈ l := by
  unfold oks
  rw [List.mem_filterMap]
  constructor
  · rintro ⟨x, hx, hxa⟩
    cases x with
    | error e => simp [Except.toOption] at hxa
    | ok b =>
      rw [Except.toOption, Option.some.injEq] at hxa
      exact hxa ▸ hx
  · exact fun h => ⟨_, h, rfl⟩

theorem mem_errorsOf {ε α : Type} {l : List (Except ε α)} {e : ε} :
    e ∈ errorsOf l ↔ .error e ∈ l := by
  unfold errorsOf
  rw [List.mem_filterMap]
  constructor
  · rintro ⟨x, hx, hxe⟩
    cases x with
    | error e' =>
      rw [Option.some.injEq] at hxe
      exact hxe ▸ hx
    | ok b => simp at hxe
  · exact fun h => ⟨_, h, rfl⟩

/-- A read item carries its position and the drawn id; otherwise the position does not matter. -/
theorem readItem_eq_ok {now : Instant} {index : Nat} {item : Item} {v : ValidatedBehaviorEvent}
    (h : readItem cfg pkg now index item = .ok v) :
    v.index = index ∧ v.event.id = item.id
      ∧ ∀ j, readItem cfg pkg now j item = .ok { v with index := j } := by
  unfold readItem at h ⊢
  cases hraw : pkg.fromValue item.value with
  | error message => simp [hraw] at h
  | ok raw =>
    simp only [hraw] at h ⊢
    split at h
    · simp at h
    · next v' hv =>
      rw [Except.ok.injEq] at h
      subst h
      obtain ⟨-, -, metadata, dwellMs, -, -, heq⟩ := validateBehaviorEvent_eq_ok hv
      refine ⟨congrArg ValidatedBehaviorEvent.index heq,
        congrArg (fun v => v.event.id) heq, fun j => ?_⟩
      rw [validateBehaviorEvent_index hv j]

/-- An error of an item names its position. -/
theorem index_of_readItem_eq_error {now : Instant} {index : Nat} {item : Item}
    {e : BehaviorEventError} (h : readItem cfg pkg now index item = .error e) : e.index = index := by
  unfold readItem at h
  split at h
  · rw [Except.error.injEq] at h
    rw [← h]
  · split at h
    · rw [Except.error.injEq] at h
      rw [← h]
    · simp at h

theorem mem_readItems {now : Instant} {items : List Item}
    {r : Except BehaviorEventError ValidatedBehaviorEvent} :
    r ∈ readItems cfg pkg now items ↔
      ∃ index item, items[index]? = some item ∧ readItem cfg pkg now index item = r := by
  simp [readItems, List.mem_zipIdx_iff_getElem?, Prod.exists]
  exact exists_comm

/-- The items that were read are at the positions they carry. -/
theorem mem_parsed {req : Request} {v : ValidatedBehaviorEvent} :
    v ∈ req.parsed cfg pkg ↔
      ∃ item, req.items[v.index]? = some item ∧ readItem cfg pkg req.now v.index item = .ok v := by
  unfold Request.parsed
  rw [mem_oks, mem_readItems]
  constructor
  · rintro ⟨index, item, hitem, hread⟩
    rw [← (readItem_eq_ok hread).1] at hitem hread
    exact ⟨item, hitem, hread⟩
  · exact fun ⟨item, hitem, hread⟩ => ⟨v.index, item, hitem, hread⟩

/-- The drawn ids of the items that were read. -/
theorem map_id_parsed_sublist {req : Request} :
    ((req.parsed cfg pkg).map fun v => v.event.id).Sublist (req.items.map Item.id) := by
  unfold Request.parsed readItems
  suffices h : ∀ n, ((oks ((req.items.zipIdx n).map fun p => readItem cfg pkg req.now p.2 p.1)).map
      fun v => v.event.id).Sublist (req.items.map Item.id) from h 0
  induction req.items with
  | nil => exact fun n => List.Sublist.refl _
  | cons item items ih =>
    intro n
    rw [List.zipIdx_cons, List.map_cons, oks]
    cases hread : readItem cfg pkg req.now n item with
    | error e =>
      rw [List.filterMap_cons_none rfl, List.map_cons]
      exact (ih (n + 1)).cons _
    | ok v =>
      rw [List.filterMap_cons_some (f := Except.toOption) (b := v) rfl, List.map_cons,
        List.map_cons, (readItem_eq_ok hread).2.1]
      exact (ih (n + 1)).cons_cons _

section Distinct

variable {db : Database} {req : Request}

/-- The request has distinct client event ids. -/
def Request.DistinctClients (cfg : Config) (pkg : Packages) (req : Request) : Prop :=
  ((req.parsed cfg pkg).map fun v => v.event.clientEventId).Nodup

instance (req : Request) : Decidable (req.DistinctClients cfg pkg) :=
  inferInstanceAs (Decidable (List.Nodup _))

/-- The rows of the database and the items of the request have distinct ids. -/
def Request.FreshIds (db : Database) (req : Request) : Prop :=
  (db.behaviorEvents.map BehaviorRow.id ++ req.items.map Item.id).Nodup

instance (db : Database) (req : Request) : Decidable (req.FreshIds db) :=
  inferInstanceAs (Decidable (List.Nodup _))

/-- The kept items have distinct client event ids. -/
theorem nodup_distinct :
    ((req.distinct cfg pkg).map fun v => v.event.clientEventId).Nodup := Lib.nodup_newRows

/-- The kept items are read ones. -/
theorem distinct_subset_parsed : req.distinct cfg pkg ⊆ req.parsed cfg pkg := Lib.newRows_subset

/-- The drawn ids of the kept items. -/
theorem map_id_distinct_sublist :
    ((req.distinct cfg pkg).map fun v => v.event.id).Sublist (req.items.map Item.id) :=
  (Lib.newRows_sublist.map _).trans map_id_parsed_sublist

theorem postExists_iff {items : List ValidatedBehaviorEvent} {v : ValidatedBehaviorEvent}
    (hv : v ∈ items) : postExists db items v = true ↔ (db.post v.event.postId).isSome := by
  unfold postExists existingPostIds
  rw [decide_eq_true_eq, List.mem_filter]
  exact and_iff_right (List.mem_map_of_mem (f := fun v => v.event.postId) hv)

theorem mem_ready_iff {v : ValidatedBehaviorEvent} :
    v ∈ req.ready cfg pkg db ↔ v ∈ req.distinct cfg pkg ∧ (db.post v.event.postId).isSome := by
  unfold Request.ready
  rw [List.mem_filter]
  exact and_congr_right postExists_iff

variable (hclients : req.DistinctClients cfg pkg)

include hclients in
theorem distinct_eq_parsed : req.distinct cfg pkg = req.parsed cfg pkg := by
  unfold Request.distinct retainFirst
  rw [Lib.newRows_of_nodup hclients]
  apply List.filter_eq_self.mpr
  intro v _
  simp [Taken]

include hclients in
theorem mem_ready {v : ValidatedBehaviorEvent} :
    v ∈ req.ready cfg pkg db ↔ v ∈ req.parsed cfg pkg ∧ (db.post v.event.postId).isSome := by
  rw [mem_ready_iff, distinct_eq_parsed hclients]

/-- Every impression that an event names was served to the user for the post of the event. -/
def Owned (db : Database) (userId : Uuid) (event : NewBehaviorEvent) : Prop :=
  ∀ impressionId ∈ event.impressionId, Served db userId impressionId event.postId

instance (db : Database) (userId : Uuid) (event : NewBehaviorEvent) :
    Decidable (Owned db userId event) :=
  inferInstanceAs (Decidable (∀ impressionId ∈ event.impressionId, _))

/-- The impression of an event was served for the post of another event of the request. -/
def Lent (cfg : Config) (pkg : Packages) (db : Database) (req : Request)
    (v : ValidatedBehaviorEvent) : Prop :=
  ¬ Owned db req.userId v.event ∧ ∃ w ∈ req.ready cfg pkg db,
    w.event.impressionId = v.event.impressionId ∧ Owned db req.userId w.event

theorem mem_validImpressions {impressionId : Uuid} :
    impressionId ∈ req.validImpressions cfg pkg db ↔ ∃ w ∈ req.ready cfg pkg db,
      w.event.impressionId = some impressionId ∧ Owned db req.userId w.event := by
  unfold Request.validImpressions validImpressionIds ValidatedBehaviorEvent.reference Owned
  simp only [List.mem_map, List.mem_filter, List.mem_filterMap, Option.map_eq_some_iff,
    decide_eq_true_eq, Prod.exists, Prod.mk.injEq]
  constructor
  · rintro ⟨_, postId, ⟨⟨w, hw, id, hid, rfl, rfl⟩, hserved⟩, rfl⟩
    refine ⟨w, hw, hid, fun i hi => ?_⟩
    rw [hid, Option.mem_some_iff] at hi
    exact hi ▸ hserved
  · rintro ⟨w, hw, hid, howned⟩
    exact ⟨impressionId, w.event.postId,
      ⟨⟨w, hw, impressionId, hid, rfl, rfl⟩, howned _ hid⟩, rfl⟩

/-- The impression check lets an event pass when its own impression was served, or when the
    impression of another event lends itself. -/
theorem impressionAllowed_iff {v : ValidatedBehaviorEvent} (hv : v ∈ req.ready cfg pkg db) :
    impressionAllowed (req.validImpressions cfg pkg db) v = true ↔
      Owned db req.userId v.event ∨ Lent cfg pkg db req v := by
  unfold impressionAllowed
  cases hid : v.event.impressionId with
  | none =>
    have howned : Owned db req.userId v.event := by simp [Owned, hid]
    simp [howned]
  | some impressionId =>
    show decide _ = true ↔ _
    rw [decide_eq_true_eq, mem_validImpressions]
    by_cases howned : Owned db req.userId v.event
    · exact ⟨fun _ => .inl howned, fun _ => ⟨v, hv, hid, howned⟩⟩
    · simp [howned, Lent, hid]

theorem mem_retained {v : ValidatedBehaviorEvent} :
    v ∈ req.retained cfg pkg db ↔
      v ∈ req.ready cfg pkg db ∧ (Owned db req.userId v.event ∨ Lent cfg pkg db req v) := by
  unfold Request.retained
  rw [List.mem_filter]
  exact and_congr_right impressionAllowed_iff

/-! ### When a request succeeds -/

/-- The client event id of an event is not taken. -/
def Free (db : Database) (event : NewBehaviorEvent) : Prop :=
  ¬ Taken BehaviorRow.clientEventId db.behaviorEvents event.clientEventId

instance (db : Database) (event : NewBehaviorEvent) : Decidable (Free db event) :=
  inferInstanceAs (Decidable (¬ _))

/-- The casts and the checks accept every event that is inserted, and those with a free client
    event id own their impression. -/
def Request.Accepted (cfg : Config) (pkg : Packages) (db : Database) (req : Request) : Prop :=
  ∀ v ∈ req.retained cfg pkg db,
    Insertable db req.userId req.dbNow v.event ∧ (Free db v.event → Owned db req.userId v.event)

/-- The rows that a request inserts. -/
def Request.rows (cfg : Config) (pkg : Packages) (db : Database) (req : Request) :
    List BehaviorRow :=
  freshRows db req.userId req.dbNow ((req.retained cfg pkg db).map fun v => v.event)

/-- The outbox rows of a request, before those are skipped whose event id is taken. -/
def Request.outboxRows (cfg : Config) (pkg : Packages) (db : Database) (req : Request) :
    List OutboxRow :=
  ((req.rows cfg pkg db).filterMap (outboxMessage cfg req.userId (req.retained cfg pkg db))).map
    fun m => ⟨m.2.eventId, topicInteractions, m.1, m.2⟩

theorem map_retained_sublist {κ : Type} (g : ValidatedBehaviorEvent → κ) :
    ((req.retained cfg pkg db).map g).Sublist ((req.distinct cfg pkg).map g) := by
  apply List.Sublist.map
  unfold Request.retained Request.ready
  exact List.filter_sublist.trans List.filter_sublist

theorem post_isSome_of_mem_retained {v : ValidatedBehaviorEvent}
    (hv : v ∈ req.retained cfg pkg db) : (db.post v.event.postId).isSome :=
  (mem_ready_iff.mp (mem_retained.mp hv).1).2

/-- The rows that a request inserts are those of its events with a free client event id. -/
theorem mem_rows {row : BehaviorRow} :
    row ∈ req.rows cfg pkg db ↔ ∃ v ∈ req.retained cfg pkg db,
      Free db v.event ∧ rowFor db req.userId req.dbNow v.event = some row := by
  unfold Request.rows freshRows Free
  simp only [List.mem_filter, List.mem_filterMap, List.mem_map, decide_eq_true_eq]
  constructor
  · rintro ⟨⟨_, ⟨v, hv, rfl⟩, hrow⟩, hfree⟩
    exact ⟨v, hv, (rowFor_eq_some hrow).2.1 ▸ hfree, hrow⟩
  · rintro ⟨v, hv, hfree, hrow⟩
    exact ⟨⟨_, ⟨v, hv, rfl⟩, hrow⟩, (rowFor_eq_some hrow).2.1 ▸ hfree⟩

/-- The foreign key accepts the row of an event when the event owns its impression. -/
theorem impressionServed_rowFor {event : NewBehaviorEvent} {row : BehaviorRow} {userId : Uuid}
    {dbNow : Instant} (h : rowFor db userId dbNow event = some row) :
    row.impressionServed db ↔ Owned db userId event := by
  obtain ⟨-, -, huser, hpost, himpression, -⟩ := rowFor_eq_some h
  unfold BehaviorRow.impressionServed Owned
  rw [huser, hpost, himpression]

variable (hids : req.FreshIds db)

include hids in
/-- **The insert of a request.** -/
theorem insertBehaviorEvents_retained {db' : Database} {inserted : List BehaviorRow} :
    insertBehaviorEvents db req.userId req.dbNow
        ((req.retained cfg pkg db).map fun item => item.event) = .ok (db', inserted) ↔
      req.Accepted cfg pkg db
        ∧ db' = { db with behaviorEvents := db.behaviorEvents ++ req.rows cfg pkg db }
        ∧ inserted = req.rows cfg pkg db := by
  have hclient : (((req.retained cfg pkg db).map fun item => item.event).map
      NewBehaviorEvent.clientEventId).Nodup := by
    rw [List.map_map]
    exact nodup_distinct.sublist (map_retained_sublist _)
  have hid : (db.behaviorEvents.map BehaviorRow.id
      ++ ((req.retained cfg pkg db).map fun item => item.event).map NewBehaviorEvent.id).Nodup := by
    rw [List.map_map]
    refine hids.sublist (List.Sublist.append (List.Sublist.refl _) ?_)
    exact (map_retained_sublist _).trans map_id_distinct_sublist
  rw [insertBehaviorEvents_eq_ok_iff hclient hid, ← and_assoc]
  apply and_congr_left
  intro _
  unfold Request.Accepted
  simp only [List.forall_mem_map]
  constructor
  · rintro ⟨hinsert, hserved⟩ v hv
    refine ⟨hinsert v hv, fun hfree => ?_⟩
    obtain ⟨row, hrow⟩ := exists_rowFor (hinsert v hv) (post_isSome_of_mem_retained hv)
    exact (impressionServed_rowFor hrow).mp
      (hserved row (mem_rows.mpr ⟨v, hv, hfree, hrow⟩))
  · intro hall
    refine ⟨fun v hv => (hall v hv).1, fun row hrow => ?_⟩
    obtain ⟨v, hv, hfree, hrow⟩ := mem_rows.mp hrow
    exact (impressionServed_rowFor hrow).mpr ((hall v hv).2 hfree)

variable (hsize : req.items ≠ [] ∧ req.items.length ≤ maxBehaviorBatchSize)

include hids hsize in
/-- **When a request succeeds.**  It does exactly when its insert is accepted. -/
theorem exists_ingestBehaviorEvents_eq_ok :
    (∃ r, ingestBehaviorEvents cfg pkg db req = .ok r) ↔ req.Accepted cfg pkg db := by
  unfold ingestBehaviorEvents
  rw [if_neg (by rw [not_or, Nat.not_lt]; exact hsize)]
  cases hinsert : insertBehaviorEvents db req.userId req.dbNow
      ((req.retained cfg pkg db).map fun item => item.event) with
  | error e =>
    simp only [reduceCtorEq, exists_false, false_iff]
    intro haccepted
    rw [(insertBehaviorEvents_retained hids).mpr ⟨haccepted, rfl, rfl⟩] at hinsert
    contradiction
  | ok r =>
    obtain ⟨db', inserted⟩ := r
    exact ⟨fun _ => ((insertBehaviorEvents_retained hids).mp hinsert).1, fun _ => ⟨_, rfl⟩⟩

include hids in
/-- What a request that succeeds leaves behind. -/
theorem of_ingestBehaviorEvents_eq_ok {db' : Database} {response : BehaviorBatchResponse}
    (h : ingestBehaviorEvents cfg pkg db req = .ok (db', response)) :
    db'.behaviorEvents = db.behaviorEvents ++ req.rows cfg pkg db
      ∧ ∀ e, e ∈ response.errors ↔ e ∈ req.errors cfg pkg db := by
  obtain ⟨_, _, hinsert, -, rfl, -, -, -, herrors⟩ := exists_of_ingestBehaviorEvents_eq_ok h
  obtain ⟨-, rfl, rfl⟩ := (insertBehaviorEvents_retained hids).mp hinsert
  refine ⟨?_, fun e => by rw [herrors, Lib.mem_stableSort]⟩
  rw [behaviorEvents_enqueueOutboxEvents]
  split <;> rfl

include hids in
/-- A request that succeeds is accepted. -/
theorem accepted_of_ingestBehaviorEvents_eq_ok {r : Database × BehaviorBatchResponse}
    (h : ingestBehaviorEvents cfg pkg db req = .ok r) : req.Accepted cfg pkg db := by
  obtain ⟨_, _, hinsert, -⟩ := exists_of_ingestBehaviorEvents_eq_ok h
  exact ((insertBehaviorEvents_retained hids).mp hinsert).1

/-- A request that succeeds is not too long. -/
theorem length_le_of_ingestBehaviorEvents_eq_ok {r : Database × BehaviorBatchResponse}
    (h : ingestBehaviorEvents cfg pkg db req = .ok r) :
    req.items.length ≤ maxBehaviorBatchSize := by
  obtain ⟨_, _, -, hsize, -⟩ := exists_of_ingestBehaviorEvents_eq_ok h
  exact hsize

include hids in
/-- The tables after a request that succeeds. -/
theorem database_of_ingestBehaviorEvents_eq_ok {db' : Database} {response : BehaviorBatchResponse}
    (h : ingestBehaviorEvents cfg pkg db req = .ok (db', response)) :
    db'.behaviorEvents = db.behaviorEvents ++ req.rows cfg pkg db
      ∧ db'.outbox = insertAllNew OutboxRow.eventId db.outbox (req.outboxRows cfg pkg db)
      ∧ SameCatalog db' db := by
  obtain ⟨_, _, hinsert, -, rfl, -⟩ := exists_of_ingestBehaviorEvents_eq_ok h
  obtain ⟨-, rfl, rfl⟩ := (insertBehaviorEvents_retained hids).mp hinsert
  refine ⟨?_, ?_, ?_, fun id => ?_⟩
  · rw [behaviorEvents_enqueueOutboxEvents]
    split <;> rfl
  · unfold enqueueOutboxEvents Request.outboxRows
    dsimp only
    split <;> rfl
  · unfold enqueueOutboxEvents
    dsimp only
    split <;> rfl
  · show Option.map Post.topicSnapshot (List.find? _ (Database.posts (if _ then _ else _))) = _
    split
    · exact topicSnapshot_bumpViewCounts db _ id
    · rfl

end Distinct

end Handler

/-! ### A reader for small requests -/

/-- The first UUIDs. -/
def uuidTexts : List String :=
  ["00000000-0000-0000-0000-000000000000", "00000000-0000-0000-0000-000000000001",
   "00000000-0000-0000-0000-000000000002", "00000000-0000-0000-0000-000000000003",
   "00000000-0000-0000-0000-000000000004", "00000000-0000-0000-0000-000000000005",
   "00000000-0000-0000-0000-000000000006", "00000000-0000-0000-0000-000000000007"]

/-- A field of a request item with a UUID. -/
def uuidField (item : Object) (name : String) : Option Uuid :=
  ((item.get name).bind Json.asStr).bind fun text => uuidTexts.idxOf? text

/-- Read an item whose UUIDs are among the first ones and that occurred at the epoch. -/
def readSmall (value : Json) : Option RawBehaviorEvent := do
  let item ← value.asObject
  let clientEventId ← uuidField item "client_event_id"
  let postId ← uuidField item "post_id"
  let eventType ← (item.get "event_type").bind Json.asStr
  let occurredAt ← (item.get "occurred_at").bind Json.asStr
  if occurredAt = "1970-01-01T00:00:00Z" then
    some {
      clientEventId
      postId
      impressionId := uuidField item "impression_id"
      sessionId := uuidField item "session_id"
      eventType
      eventVersion := (item.get "event_version").bind Json.asStr
      dwellMs := (item.get "dwell_ms").bind Json.asI64
      metadata := (item.get "metadata").getD (.obj [])
      occurredAt := 0 }
  else none

/-- Package functions that read small requests. -/
def smallPackages : Packages where
  fromValue value :=
    match readSmall value with
    | some raw => .ok raw
    | none => .error "not a small request"
  parseUuid text := uuidTexts.idxOf? text

/-- The text of a UUID in a small request. -/
def uuidText (id : Uuid) : Json := .str (uuidTexts.getD id "")

end Oecophylla.Ingestion
