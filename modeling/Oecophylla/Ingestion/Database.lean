import Oecophylla.Ingestion.Events
import Oecophylla.Ingestion.Jsonb
import Oecophylla.Lib.Table

namespace Oecophylla.Ingestion

open Lib (Taken insertAllNew newRows)

/-!
# The tables behind telemetry — `interaction-service/src/repo.rs` and the migrations

* `Database` — posts, served impressions, stored behavior events and the outbox;
* `existingPostIds`, `validImpressionIds`, `insertBehaviorEvents`, `enqueueOutboxEvents` —
  the statements of the handler;
* `insertBehaviorEvents_eq_ok_iff` — when the multi-row insert goes through: every row is
  accepted by the casts and the checks, and every *inserted* row satisfies the primary key
  and the composite foreign key.
-/

/-- A post, with what telemetry reads of it and writes to it.  Elements of `TEXT[]` columns can
    be `NULL`. -/
structure Post where
  id : Uuid
  topics : List (Option String)
  tags : List (Option String)
  viewCount : Nat
  deriving DecidableEq, Repr

/-- A row of `recommendation_impressions`. -/
structure Impression where
  id : Uuid
  userId : Uuid
  postId : Uuid
  deriving DecidableEq, Repr

/-- A row of `behavior_events`. -/
structure BehaviorRow where
  id : Uuid
  clientEventId : Uuid
  userId : Uuid
  postId : Uuid
  impressionId : Option Uuid
  sessionId : Option Uuid
  eventType : String
  dwellMs : Option Int
  metadata : Json
  occurredAt : Instant
  ingestedAt : Instant
  topicSnapshot : List String

/-- A row of `interaction_event_outbox`. -/
structure OutboxRow where
  eventId : Uuid
  topic : String
  partitionKey : Uuid
  payload : Envelope
  deriving DecidableEq, Repr

/-- The tables. -/
structure Database where
  posts : List Post
  impressions : List Impression
  behaviorEvents : List BehaviorRow
  outbox : List OutboxRow

/-- An error of the database; the request fails and its transaction is rolled back. -/
inductive DbError where
  | cast
  | check
  | uniqueViolation
  | foreignKeyViolation
  deriving DecidableEq, Repr

/-! ### Reading -/

/-- The post with an id. -/
def Database.post (db : Database) (id : Uuid) : Option Post := db.posts.find? fun p => p.id = id

/-- `existing_post_ids`. -/
def existingPostIds (db : Database) (postIds : List Uuid) : List Uuid :=
  postIds.filter fun id => (db.post id).isSome

/-- The impression was served to the user for the post. -/
def Served (db : Database) (userId impressionId postId : Uuid) : Prop :=
  (⟨impressionId, userId, postId⟩ : Impression) ∈ db.impressions

instance (db : Database) (userId impressionId postId : Uuid) :
    Decidable (Served db userId impressionId postId) :=
  inferInstanceAs (Decidable (_ ∈ db.impressions))

/-- `valid_impression_ids(user_id, references)`: the *ids* of the impressions that match one of
    the requested pairs. -/
def validImpressionIds (db : Database) (userId : Uuid) (references : List (Uuid × Uuid)) :
    List Uuid :=
  (references.filter fun r => Served db userId r.1 r.2).map Prod.fst

/-- The topics of a post, as a statement takes the snapshot. -/
def Post.topicSnapshot (p : Post) : List String :=
  let topics := (p.topics.filterMap fun t => t).filter fun t => t ≠ "" ∧ t ≠ "general"
  let tags := (p.tags.filterMap fun t => t).filter fun t => t ≠ ""
  if topics ≠ [] then topics else if tags ≠ [] then tags else ["general"]

/-! ### Inserting behavior events -/

/-- The `CHECK` constraints of `behavior_events`. -/
def BehaviorRow.checks (row : BehaviorRow) : Bool :=
  decide (row.eventType ∈ Label.eventTypes)
    && decide (∀ d ∈ row.dwellMs, 0 ≤ d ∧ d ≤ 1800000)
    && row.metadata.asObject.isSome
    && decide (jsonbLength row.metadata ≤ 8192)
    && decide (row.eventType = "dwell" → row.dwellMs.isSome)
    && decide (row.dwellMs.isSome → row.eventType = "view" ∨ row.eventType = "dwell")

/-- The row that the statement builds for an event; none when the post does not exist. -/
def candidateRow (db : Database) (userId : Uuid) (dbNow : Instant) (event : NewBehaviorEvent) :
    Except DbError (Option BehaviorRow) :=
  match db.post event.postId with
  | none => .ok none
  | some post =>
    match jsonb event.metadata with
    | none => .error .cast
    | some metadata =>
      let row : BehaviorRow := {
        id := event.id
        clientEventId := event.clientEventId
        userId
        postId := event.postId
        impressionId := event.impressionId
        sessionId := event.sessionId
        eventType := event.eventType
        dwellMs := event.dwellMs
        metadata
        occurredAt := event.occurredAt
        ingestedAt := dbNow
        topicSnapshot := post.topicSnapshot }
      if row.checks then .ok (some row) else .error .check

/-- The foreign key `(impression_id, user_id, post_id)` of a row; a row without an impression
    satisfies it. -/
def BehaviorRow.impressionServed (db : Database) (row : BehaviorRow) : Prop :=
  ∀ impressionId ∈ row.impressionId, Served db row.userId impressionId row.postId

instance (db : Database) (row : BehaviorRow) : Decidable (row.impressionServed db) :=
  inferInstanceAs (Decidable (∀ impressionId ∈ row.impressionId, _))

/-- `insert_behavior_events(user_id, events)`: the database and the rows that were inserted. -/
def insertBehaviorEvents (db : Database) (userId : Uuid) (dbNow : Instant)
    (events : List NewBehaviorEvent) : Except DbError (Database × List BehaviorRow) := do
  let candidates ← events.mapM (candidateRow db userId dbNow)
  let inserted := newRows BehaviorRow.clientEventId db.behaviorEvents (candidates.filterMap id)
  if ((db.behaviorEvents ++ inserted).map BehaviorRow.id).Nodup then
    if ∀ row ∈ inserted, row.impressionServed db then
      .ok ({ db with behaviorEvents := db.behaviorEvents ++ inserted }, inserted)
    else .error .foreignKeyViolation
  else .error .uniqueViolation

/-- The casts and the checks accept the row of an event. -/
def Insertable (db : Database) (userId : Uuid) (dbNow : Instant) (event : NewBehaviorEvent) : Prop :=
  ∃ row, candidateRow db userId dbNow event = .ok row

instance (db : Database) (userId : Uuid) (dbNow : Instant) (event : NewBehaviorEvent) :
    Decidable (Insertable db userId dbNow event) :=
  match h : candidateRow db userId dbNow event with
  | .ok row => .isTrue ⟨row, h⟩
  | .error _ => .isFalse fun ⟨row, hrow⟩ => by rw [h] at hrow; contradiction

/-- The row of an event that the casts and the checks accept. -/
def rowFor (db : Database) (userId : Uuid) (dbNow : Instant) (event : NewBehaviorEvent) :
    Option BehaviorRow :=
  match candidateRow db userId dbNow event with
  | .ok row => row
  | .error _ => none

/-- `bump_view_counts(post_ids)`. -/
def bumpViewCounts (db : Database) (postIds : List Uuid) : Database :=
  { db with posts := db.posts.map fun p => { p with viewCount := p.viewCount + postIds.count p.id } }

/-- `TOPIC_INTERACTIONS`. -/
def topicInteractions : String := "oecophylla.interactions"

/-- `enqueue_outbox_events(messages)`; a message is its post and its envelope. -/
def enqueueOutboxEvents (db : Database) (messages : List (Uuid × Envelope)) : Database :=
  { db with
    outbox := insertAllNew OutboxRow.eventId db.outbox
      (messages.map fun m => ⟨m.2.eventId, topicInteractions, m.1, m.2⟩) }

@[simp] theorem behaviorEvents_bumpViewCounts (db : Database) (postIds : List Uuid) :
    (bumpViewCounts db postIds).behaviorEvents = db.behaviorEvents := rfl

@[simp] theorem behaviorEvents_enqueueOutboxEvents (db : Database)
    (messages : List (Uuid × Envelope)) :
    (enqueueOutboxEvents db messages).behaviorEvents = db.behaviorEvents := rfl

/-! ### What the statements read of posts and impressions -/

/-- Two databases have the same impressions, and the same posts up to their view counts. -/
structure SameCatalog (db db' : Database) : Prop where
  impressions : db.impressions = db'.impressions
  topicSnapshot : ∀ id, (db.post id).map Post.topicSnapshot = (db'.post id).map Post.topicSnapshot

/-- Counting views changes no post but its count. -/
theorem topicSnapshot_bumpViewCounts (db : Database) (postIds : List Uuid) (id : Uuid) :
    ((bumpViewCounts db postIds).post id).map Post.topicSnapshot
      = (db.post id).map Post.topicSnapshot := by
  unfold bumpViewCounts Database.post
  dsimp only
  rw [List.find?_map, Option.map_map]
  rfl

section Catalog

variable {db db' : Database} (h : SameCatalog db db')

include h

theorem post_isSome_of_sameCatalog (id : Uuid) : (db.post id).isSome = (db'.post id).isSome := by
  have hid := congrArg Option.isSome (h.topicSnapshot id)
  rwa [Option.isSome_map, Option.isSome_map] at hid

theorem served_of_sameCatalog {userId impressionId postId : Uuid} :
    Served db userId impressionId postId ↔ Served db' userId impressionId postId := by
  unfold Served
  rw [h.impressions]

/-- The row of an event is the same. -/
theorem candidateRow_of_sameCatalog (userId : Uuid) (dbNow : Instant) (event : NewBehaviorEvent) :
    candidateRow db userId dbNow event = candidateRow db' userId dbNow event := by
  have hsnapshot := h.topicSnapshot event.postId
  unfold candidateRow
  cases hpost : db.post event.postId with
  | none =>
    rw [hpost, Option.map_none, eq_comm, Option.map_eq_none_iff] at hsnapshot
    rw [hsnapshot]
  | some post =>
    rw [hpost, Option.map_some, eq_comm, Option.map_eq_some_iff] at hsnapshot
    obtain ⟨post', hpost', heq⟩ := hsnapshot
    simp only [hpost', heq]

theorem rowFor_of_sameCatalog (userId : Uuid) (dbNow : Instant) (event : NewBehaviorEvent) :
    rowFor db userId dbNow event = rowFor db' userId dbNow event := by
  unfold rowFor
  rw [candidateRow_of_sameCatalog h]

theorem insertable_of_sameCatalog {userId : Uuid} {dbNow : Instant} {event : NewBehaviorEvent} :
    Insertable db userId dbNow event ↔ Insertable db' userId dbNow event := by
  unfold Insertable
  rw [candidateRow_of_sameCatalog h]

end Catalog

/-! ### When the insert goes through -/

section Insert

variable {db : Database} {userId : Uuid} {dbNow : Instant} {events : List NewBehaviorEvent}

/-- What a row takes from its event. -/
theorem rowFor_eq_some {event : NewBehaviorEvent} {row : BehaviorRow}
    (h : rowFor db userId dbNow event = some row) :
    row.id = event.id ∧ row.clientEventId = event.clientEventId ∧ row.userId = userId
      ∧ row.postId = event.postId ∧ row.impressionId = event.impressionId
      ∧ (db.post event.postId).isSome := by
  unfold rowFor candidateRow at h
  cases hpost : db.post event.postId with
  | none => simp [hpost] at h
  | some post =>
    cases hjsonb : jsonb event.metadata with
    | none => simp [hpost, hjsonb] at h
    | some metadata =>
      simp only [hpost, hjsonb] at h
      split at h
      · next heq =>
        split_ifs at heq
        rw [Except.ok.injEq] at heq
        subst heq
        rw [Option.some.injEq] at h
        subst h
        exact ⟨rfl, rfl, rfl, rfl, rfl, rfl⟩
      · simp at h

/-- An accepted event of an existing post has a row. -/
theorem exists_rowFor {event : NewBehaviorEvent} (h : Insertable db userId dbNow event)
    (hpost : (db.post event.postId).isSome) : ∃ row, rowFor db userId dbNow event = some row := by
  obtain ⟨r, hr⟩ := h
  unfold rowFor
  rw [hr]
  obtain ⟨post, hp⟩ := Option.isSome_iff_exists.mp hpost
  unfold candidateRow at hr
  rw [hp] at hr
  cases hjsonb : jsonb event.metadata with
  | none => simp [hjsonb] at hr
  | some metadata =>
    simp only [hjsonb] at hr
    split_ifs at hr
    rw [Except.ok.injEq] at hr
    exact ⟨_, hr.symm⟩

/-- A key of the rows of some events is a key of the events. -/
theorem sublist_map_rowFor {κ : Type} {g : BehaviorRow → κ} {h : NewBehaviorEvent → κ}
    (hg : ∀ event row, rowFor db userId dbNow event = some row → g row = h event) :
    ((events.filterMap (rowFor db userId dbNow)).map g).Sublist (events.map h) := by
  induction events with
  | nil => exact List.Sublist.refl _
  | cons event events ih =>
    cases hrow : rowFor db userId dbNow event with
    | none =>
      rw [List.filterMap_cons_none hrow, List.map_cons]
      exact ih.cons _
    | some row =>
      rw [List.filterMap_cons_some hrow, List.map_cons, List.map_cons, hg event row hrow]
      exact ih.cons_cons _

/-- The rows that are inserted: those whose client event id is free. -/
def freshRows (db : Database) (userId : Uuid) (dbNow : Instant) (events : List NewBehaviorEvent) :
    List BehaviorRow :=
  (events.filterMap (rowFor db userId dbNow)).filter fun row =>
    ¬ Taken BehaviorRow.clientEventId db.behaviorEvents row.clientEventId

theorem mapM_candidateRow_eq_ok {candidates : List (Option BehaviorRow)} :
    events.mapM (candidateRow db userId dbNow) = .ok candidates ↔
      (∀ event ∈ events, Insertable db userId dbNow event)
        ∧ candidates = events.map (rowFor db userId dbNow) := by
  rw [Lib.mapM_eq_ok_iff]
  constructor
  · intro h
    constructor
    · intro event hevent
      have hmem : candidateRow db userId dbNow event ∈ candidates.map .ok :=
        h ▸ List.mem_map_of_mem hevent
      obtain ⟨row, -, hrow⟩ := List.mem_map.mp hmem
      exact ⟨row, hrow.symm⟩
    · have hvalues := congrArg (List.map fun
          | .ok row => row
          | .error _ => none) h
      rw [List.map_map, List.map_map] at hvalues
      exact (List.map_id candidates).symm.trans hvalues.symm
  · rintro ⟨hall, rfl⟩
    rw [List.map_map]
    apply List.map_congr_left
    intro event hevent
    obtain ⟨row, hrow⟩ := hall event hevent
    show candidateRow db userId dbNow event = .ok (rowFor db userId dbNow event)
    unfold rowFor
    rw [hrow]

/-- What an insert that goes through leaves behind: new rows with distinct client event ids, at
    most as many as there are events. -/
theorem of_insertBehaviorEvents_eq_ok {db' : Database} {inserted : List BehaviorRow}
    (h : insertBehaviorEvents db userId dbNow events = .ok (db', inserted)) :
    db'.behaviorEvents = db.behaviorEvents ++ inserted
      ∧ (inserted.map BehaviorRow.clientEventId).Nodup ∧ inserted.length ≤ events.length := by
  unfold insertBehaviorEvents at h
  simp only [Lib.except_bind_eq_ok, mapM_candidateRow_eq_ok] at h
  obtain ⟨_, ⟨-, rfl⟩, h⟩ := h
  split_ifs at h
  rw [Except.ok.injEq, Prod.mk.injEq] at h
  obtain ⟨rfl, rfl⟩ := h
  refine ⟨rfl, Lib.nodup_newRows, ?_⟩
  refine Lib.newRows_sublist.length_le.trans ((List.length_filterMap_le _ _).trans ?_)
  rw [List.length_map]

/-- **The multi-row insert.**  With distinct client event ids and new row ids it goes through
    exactly when the casts and the checks accept every row, and every row that is inserted
    names an impression that was served. -/
theorem insertBehaviorEvents_eq_ok_iff {db' : Database} {inserted : List BehaviorRow}
    (hclient : (events.map NewBehaviorEvent.clientEventId).Nodup)
    (hids : (db.behaviorEvents.map BehaviorRow.id ++ events.map NewBehaviorEvent.id).Nodup) :
    insertBehaviorEvents db userId dbNow events = .ok (db', inserted) ↔
      (∀ event ∈ events, Insertable db userId dbNow event)
        ∧ (∀ row ∈ freshRows db userId dbNow events, row.impressionServed db)
        ∧ db' = { db with behaviorEvents := db.behaviorEvents ++ freshRows db userId dbNow events }
        ∧ inserted = freshRows db userId dbNow events := by
  have hrows : newRows BehaviorRow.clientEventId db.behaviorEvents
      (events.filterMap (rowFor db userId dbNow)) = freshRows db userId dbNow events :=
    Lib.newRows_of_nodup (hclient.sublist (sublist_map_rowFor fun _ _ h => (rowFor_eq_some h).2.1))
  have hfresh : ((db.behaviorEvents ++ freshRows db userId dbNow events).map BehaviorRow.id).Nodup := by
    rw [List.map_append]
    refine hids.sublist (List.Sublist.append (List.Sublist.refl _) ?_)
    exact ((List.filter_sublist).map _).trans (sublist_map_rowFor fun _ _ h => (rowFor_eq_some h).1)
  unfold insertBehaviorEvents
  simp only [Lib.except_bind_eq_ok, mapM_candidateRow_eq_ok]
  constructor
  · rintro ⟨_, ⟨hall, rfl⟩, h⟩
    rw [List.filterMap_map, Function.id_comp, hrows, if_pos hfresh] at h
    split_ifs at h with hserved
    rw [Except.ok.injEq, Prod.mk.injEq] at h
    exact ⟨hall, hserved, h.1.symm, h.2.symm⟩
  · rintro ⟨hall, hserved, rfl, rfl⟩
    refine ⟨_, ⟨hall, rfl⟩, ?_⟩
    rw [List.filterMap_map, Function.id_comp, hrows, if_pos hfresh, if_pos hserved]

end Insert

end Oecophylla.Ingestion
