import Oecophylla.Lib.Table
import Oecophylla.Worker.Envelope

namespace Oecophylla.Worker

open Lib (Taken insertAllNew newRows)
open Oecophylla.Python (Value str truthy uuidText)

/-!
# The transaction of one user — `Worker._apply_for_user`

* `Store` — users, posts, receipts and the v1 vectors;
* `applyForUser` — what the transaction leaves behind when it commits; `none` when one of its
  statements raises on the events themselves;
* `deltas` — the topic deltas that it applies;
* `applyForUser_eq_some` — receipts and vector move together.

The v2 vector, the recent topics and the cache are written beside the v1 vector and read by
none of the functions here.  No writer of `posts` stores a `NULL` among topics or tags.
-/

/-- What the worker is configured with, and the encoder of the driver for `uuid` arguments
    (`none` when it raises). -/
structure Config (F : Type) where
  qualifiedReadMs : Int
  flushBatchSize : Nat
  floats : Floats F
  encodeUuid : Value → Option Uuid

/-- A post, with what the worker reads of it. -/
structure Post where
  id : Uuid
  topics : List String
  tags : List String
  deriving DecidableEq, Repr

/-- A row of `feature_event_receipts`. -/
structure Receipt where
  eventId : Uuid
  userId : Uuid
  eventType : String
  deriving DecidableEq, Repr

/-- The tables. -/
structure Store (F : Type) where
  users : List Uuid
  posts : List Post
  receipts : List Receipt
  preferences : List (Uuid × TopicWeights F)

/-- A topic delta: the event, the user and the topics over which the weight is spread. -/
structure Delta where
  event : Envelope
  userId : Uuid
  topics : List String

section Tables

variable {F : Type}

/-- The `topic_weights` of a user; empty when there is no row. -/
def Store.topicWeights (store : Store F) (user : Uuid) : TopicWeights F :=
  (store.preferences.lookup user).getD []

/-- The upsert into `user_preference_vectors`. -/
def Store.upsertWeights (store : Store F) (user : Uuid) (vec : TopicWeights F) : Store F :=
  { store with preferences := (user, vec) :: store.preferences.filter fun row => row.1 ≠ user }

/-- Deleting a user takes its vector along and leaves its receipts. -/
def Store.deleteUser (store : Store F) (user : Uuid) : Store F :=
  { store with
    users := store.users.filter fun u => u ≠ user
    preferences := store.preferences.filter fun row => row.1 ≠ user }

theorem lookup_filter_ne {user u : Uuid} (h : u ≠ user) (rows : List (Uuid × TopicWeights F)) :
    (rows.filter fun row => row.1 ≠ user).lookup u = rows.lookup u := by
  induction rows with
  | nil => rfl
  | cons row rows ih =>
    by_cases hrow : row.1 = user
    · have hne : (u == row.1) = false := by simpa [hrow] using h
      rw [List.filter_cons_of_neg (by simpa using hrow), ih, List.lookup_cons, hne]
    · rw [List.filter_cons_of_pos (by simpa using hrow), List.lookup_cons, List.lookup_cons, ih]

@[simp] theorem topicWeights_upsertWeights (store : Store F) (user u : Uuid) (vec : TopicWeights F) :
    (store.upsertWeights user vec).topicWeights u
      = if u = user then vec else store.topicWeights u := by
  unfold Store.topicWeights Store.upsertWeights
  rw [List.lookup_cons]
  by_cases h : u = user
  · simp [h]
  · have hne : (u == user) = false := by simpa using h
    rw [hne, if_neg h, lookup_filter_ne h]

theorem topicWeights_deleteUser (store : Store F) {user u : Uuid} (h : u ≠ user) :
    (store.deleteUser user).topicWeights u = store.topicWeights u := by
  unfold Store.topicWeights Store.deleteUser
  rw [lookup_filter_ne h]

end Tables

/-! ### Claiming receipts -/

/-- The first envelope of each event id. -/
def uniqueEvents (events : List Envelope) : List Envelope :=
  insertAllNew eventId [] (events.filter fun env => (eventId env).isSome)

/-- The row that claims an event. -/
def receiptOf (user : Uuid) (env : Envelope) : Option Receipt :=
  (eventId env).map fun id => ⟨id, user, eventType env⟩

/-- `CLAIM_RECEIPTS_SQL`: the rows that are inserted. -/
def claimReceipts (receipts : List Receipt) (user : Uuid) (events : List Envelope) : List Receipt :=
  newRows Receipt.eventId receipts (events.filterMap (receiptOf user))

/-- The events whose receipts were claimed. -/
def claimedEvents (claimed : List Receipt) (events : List Envelope) : List Envelope :=
  events.filter fun env => decide (eventId env ∈ claimed.map fun r => some r.eventId)

theorem mem_uniqueEvents {events : List Envelope} {env : Envelope}
    (h : env ∈ uniqueEvents events) : env ∈ events ∧ (eventId env).isSome := by
  unfold uniqueEvents at h
  rw [Lib.insertAllNew_eq, List.nil_append] at h
  have hmem := Lib.newRows_subset h
  rw [List.mem_filter] at hmem
  exact hmem

theorem nodup_uniqueEvents (events : List Envelope) :
    ((uniqueEvents events).map eventId).Nodup :=
  Lib.nodup_insertAllNew List.nodup_nil

/-- Every event with an id has a representative. -/
theorem exists_uniqueEvents {events : List Envelope} {env : Envelope} {id : Uuid}
    (henv : env ∈ events) (hid : eventId env = some id) :
    ∃ first ∈ uniqueEvents events, eventId first = some id := by
  have htaken : Taken eventId (uniqueEvents events) (some id) := by
    unfold uniqueEvents
    rw [Lib.taken_insertAllNew]
    exact .inr ⟨env, List.mem_filter.mpr ⟨henv, by simp [hid]⟩, hid⟩
  exact htaken

section Claim

variable {receipts : List Receipt} {user : Uuid} {events : List Envelope}

theorem map_eventId_receiptOf :
    (events.filterMap (receiptOf user)).map Receipt.eventId = events.filterMap eventId := by
  rw [List.map_filterMap]
  apply List.filterMap_congr
  intro env _
  unfold receiptOf
  rw [Option.map_map]
  exact Option.map_id'

/-- With distinct event ids those rows are inserted whose id has no receipt. -/
theorem claimReceipts_of_nodup (hnodup : (events.map eventId).Nodup) :
    claimReceipts receipts user events = (events.filterMap (receiptOf user)).filter fun r =>
      ¬ Taken Receipt.eventId receipts r.eventId := by
  apply Lib.newRows_of_nodup
  rw [map_eventId_receiptOf]
  have h := hnodup.filterMap (f := id) (by
    intro a b c ha hb
    exact (Option.mem_def.mp ha).trans (Option.mem_def.mp hb).symm)
  rwa [List.filterMap_map, Function.id_comp] at h

theorem mem_claimReceipts (hnodup : (events.map eventId).Nodup) {r : Receipt} :
    r ∈ claimReceipts receipts user events ↔
      (∃ env ∈ events, receiptOf user env = some r)
        ∧ ¬ Taken Receipt.eventId receipts r.eventId := by
  rw [claimReceipts_of_nodup hnodup]
  simp [List.mem_filter, List.mem_filterMap]

/-- An event is claimed when its id had no receipt. -/
theorem mem_claimedEvents (hnodup : (events.map eventId).Nodup) {env : Envelope} :
    env ∈ claimedEvents (claimReceipts receipts user events) events ↔
      env ∈ events ∧ ∃ id, eventId env = some id ∧ ¬ Taken Receipt.eventId receipts id := by
  unfold claimedEvents
  rw [List.mem_filter, decide_eq_true_eq, List.mem_map]
  apply and_congr_right
  intro henv
  constructor
  · rintro ⟨r, hr, hid⟩
    exact ⟨r.eventId, hid.symm, ((mem_claimReceipts hnodup).mp hr).2⟩
  · rintro ⟨id, hid, hfree⟩
    refine ⟨⟨id, user, eventType env⟩, (mem_claimReceipts hnodup).mpr ⟨⟨env, henv, ?_⟩, hfree⟩, hid.symm⟩
    rw [receiptOf, hid, Option.map_some]

/-- The rows that are inserted are those of the claimed events. -/
theorem map_receiptOf_claimedEvents (hnodup : (events.map eventId).Nodup) :
    ((claimedEvents (claimReceipts receipts user events) events).map (receiptOf user)).Perm
      ((claimReceipts receipts user events).map some) := by
  have hrows : (events.map (receiptOf user)).Nodup := by
    apply List.Nodup.of_map (Option.map Receipt.eventId)
    rw [List.map_map]
    convert hnodup using 2
    funext env
    rw [Function.comp_apply, receiptOf, Option.map_map]
    exact Option.map_id'
  have hclaimed : (claimReceipts receipts user events).Nodup := by
    rw [claimReceipts_of_nodup hnodup]
    apply List.Nodup.filter
    have h := hrows.filterMap (f := id) (by
      intro a b c ha hb
      exact (Option.mem_def.mp ha).trans (Option.mem_def.mp hb).symm)
    rwa [List.filterMap_map, Function.id_comp] at h
  have hevents : ((claimedEvents (claimReceipts receipts user events) events).map
      (receiptOf user)).Nodup := hrows.sublist (List.filter_sublist.map _)
  rw [List.perm_ext_iff_of_nodup hevents (hclaimed.map (Option.some_injective _))]
  intro row
  simp only [List.mem_map, mem_claimedEvents hnodup, mem_claimReceipts hnodup]
  constructor
  · rintro ⟨env, ⟨henv, id, hid, hfree⟩, rfl⟩
    have hrow : receiptOf user env = some ⟨id, user, eventType env⟩ := by
      rw [receiptOf, hid, Option.map_some]
    exact ⟨_, ⟨⟨env, henv, hrow⟩, hfree⟩, hrow.symm⟩
  · rintro ⟨r, ⟨⟨env, henv, hrow⟩, hfree⟩, rfl⟩
    obtain ⟨id, hid, rfl⟩ := Option.map_eq_some_iff.mp hrow
    exact ⟨env, ⟨henv, id, hid, hfree⟩, hrow⟩

end Claim

/-! ### Topics and deltas -/

/-- `data.post_id`. -/
def postIdOf (env : Envelope) : Value := getOrNone env.data "post_id"

/-- Whether a value can be put in a set. -/
def hashable : Value → Bool
  | .list _ => false
  | .dict _ => false
  | _ => true

/-- The topics that stand for a post. -/
def resolvedTopics (post : Post) : List String :=
  let meaningful := post.topics.filter fun topic => topic ≠ "" ∧ topic ≠ "general"
  if meaningful ≠ [] then post.topics
  else if post.tags ≠ [] then post.tags else post.topics

/-- `topics_by_post.get(str(post_id), [])`, where `ids` were asked for. -/
def topicsOf (posts : List Post) (ids : List Uuid) (env : Envelope) : List String :=
  (((posts.filter fun p => p.id ∈ ids).find? fun p => uuidText p.id = str (postIdOf env)).map
    resolvedTopics).getD []

section Apply

variable {F : Type} (cfg : Config F)

/-- `post_ids`, as the driver encodes them. -/
def postIds (applied : List Envelope) : Option (List Uuid) :=
  let ids := applied.map postIdOf
  if ids.all hashable then (ids.filter truthy).mapM cfg.encodeUuid else none

/-- Apply one delta. -/
def applyDelta (vec : TopicWeights F) (d : Delta) : TopicWeights F :=
  applyTopicDelta cfg.floats vec d.topics (eventType d.event)

/-- The deltas of the applied events. -/
def deltas (store : Store F) (user : Uuid) (applied : List Envelope) : List Delta :=
  applied.map fun env => ⟨env, user, topicsOf store.posts ((postIds cfg applied).getD []) env⟩

/-- The transaction of `_apply_for_user(user_id, events)`, with the applied events. -/
def applyForUser (store : Store F) (user : Uuid) (events : List Envelope) :
    Option (Store F × List Envelope) :=
  let unique := uniqueEvents events
  let claimed := claimReceipts store.receipts user unique
  let store' := { store with receipts := store.receipts ++ claimed }
  let applied := if user ∈ store.users then claimedEvents claimed unique else []
  if applied.any fun env => eventType env ≠ "view_observed" then
    (postIds cfg applied).map fun ids =>
      (store'.upsertWeights user (applied.foldl (fun vec env =>
        applyTopicDelta cfg.floats vec (topicsOf store.posts ids env) (eventType env))
        (store.topicWeights user)), applied)
  else some (store', applied)

variable {cfg}

/-- Events without a weight leave the vector as it is. -/
theorem foldl_applyDelta_of_viewObserved {ds : List Delta} (vec : TopicWeights F)
    (h : ∀ d ∈ ds, eventType d.event = "view_observed") : ds.foldl (applyDelta cfg) vec = vec := by
  induction ds generalizing vec with
  | nil => rfl
  | cons d ds ih =>
    have hd : applyDelta cfg vec d = vec := by
      unfold applyDelta
      rw [h d (by simp)]
      exact applyTopicDelta_of_weightless cfg.floats vec d.topics (by decide)
    rw [List.foldl_cons, hd]
    exact ih vec fun d' hd' => h d' (by simp [hd'])

/-- **The transaction.**  It inserts the receipts of the claimed events, and applies their
    deltas when the user exists. -/
theorem applyForUser_eq_some {store store' : Store F} {user : Uuid} {events applied : List Envelope}
    (h : applyForUser cfg store user events = some (store', applied)) :
    applied = (if user ∈ store.users then
        claimedEvents (claimReceipts store.receipts user (uniqueEvents events)) (uniqueEvents events)
      else [])
      ∧ store'.users = store.users ∧ store'.posts = store.posts
      ∧ store'.receipts = store.receipts ++ claimReceipts store.receipts user (uniqueEvents events)
      ∧ ∀ u, store'.topicWeights u = if u = user then
          (deltas cfg store user applied).foldl (applyDelta cfg) (store.topicWeights user)
        else store.topicWeights u := by
  unfold applyForUser at h
  dsimp only at h
  generalize happlied : (if user ∈ store.users then
      claimedEvents (claimReceipts store.receipts user (uniqueEvents events)) (uniqueEvents events)
    else []) = a at h ⊢
  split at h
  · rw [Option.map_eq_some_iff] at h
    obtain ⟨ids, hids, h⟩ := h
    rw [Prod.mk.injEq] at h
    obtain ⟨rfl, rfl⟩ := h
    refine ⟨rfl, rfl, rfl, rfl, fun u => ?_⟩
    rw [topicWeights_upsertWeights, deltas, hids, List.foldl_map]
    rfl
  · next hnone =>
    rw [Option.some.injEq, Prod.mk.injEq] at h
    obtain ⟨rfl, rfl⟩ := h
    refine ⟨rfl, rfl, rfl, rfl, fun u => ?_⟩
    have hviews : ∀ d ∈ deltas cfg store user a, eventType d.event = "view_observed" := by
      intro d hd
      obtain ⟨env, henv, rfl⟩ := List.mem_map.mp hd
      by_contra hother
      exact hnone (List.any_eq_true.mpr ⟨env, henv, by simpa using hother⟩)
    rw [foldl_applyDelta_of_viewObserved _ hviews]
    split
    · next hu => rw [hu]; rfl
    · rfl

/-- Every event has its receipt after the transaction. -/
theorem taken_of_applyForUser {store store' : Store F} {user : Uuid} {events applied : List Envelope}
    (h : applyForUser cfg store user events = some (store', applied)) {env : Envelope} {id : Uuid}
    (henv : env ∈ events) (hid : eventId env = some id) :
    Taken Receipt.eventId store'.receipts id := by
  rw [(applyForUser_eq_some h).2.2.2.1, Lib.taken_append]
  obtain ⟨first, hfirst, hfirstId⟩ := exists_uniqueEvents henv hid
  by_cases htaken : Taken Receipt.eventId store.receipts id
  · exact .inl htaken
  · refine .inr ⟨⟨id, user, eventType first⟩, ?_, rfl⟩
    refine (mem_claimReceipts (nodup_uniqueEvents events)).mpr ⟨⟨first, hfirst, ?_⟩, htaken⟩
    rw [receiptOf, hfirstId, Option.map_some]

end Apply

/-! ### Events of a small system -/

/-- Doubles in units of `1/10000`; exact on quarters and their like. -/
def tenThousandths : Floats Int where
  ofDecimal d :=
    let n : Int := d.digits * 10 ^ (d.exponent + 4).toNat
    if d.negative then -n else n
  add := (· + ·)
  div x n := x / n
  round4 := id
  isZero x := x = 0
  isZero_div n _ := by simp

/-- The configuration of the small system; the driver accepts UUID texts. -/
def smallConfig : Config Int where
  qualifiedReadMs := 10000
  flushBatchSize := 100
  floats := tenThousandths
  encodeUuid
    | .str text => Oecophylla.Python.uuidOfText text
    | _ => none

/-- The user 7 interacts with the post 2. -/
def interaction (id : Uuid) (eventType : String) : Envelope where
  fields := [("event_id", .str (Oecophylla.Python.uuidText id)), ("event_type", .str eventType),
    ("event_version", .int 1), ("occurred_at", .str "2026-08-30T12:00:00Z"),
    ("data", .dict [("user_id", .str (Oecophylla.Python.uuidText 7)),
      ("post_id", .str (Oecophylla.Python.uuidText 2))])]
  data := [("user_id", .str (Oecophylla.Python.uuidText 7)),
    ("post_id", .str (Oecophylla.Python.uuidText 2))]
  data_eq := by rfl

end Oecophylla.Worker
