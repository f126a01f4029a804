import Oecophylla.Feed.Database
import Oecophylla.Lib.OrderedDict
import Oecophylla.Lib.Paging
import Mathlib.Data.List.Dedup

namespace Oecophylla.Recommendation.Candidates

open Feed (Uuid Post)
open Lib (stableSort latestFirst OrderedDict)

/-!
# The candidate pool — `recommendation_api/app/features.py`

Candidates come from the semantic search, from followed authors, from topics and from the recent
posts, each with a quota; the first source of a post counts.  A pool that is not full is topped up
from the recent posts, of which as many are fetched as can be excluded or there already.

* `candidatesFromFollowed`, `candidatesFromTopics`, `candidatesRecent` — the queries;
* `gatherCandidates` — the pool;
* `gatherCandidates_eq` — it is the merged candidates up to the size of the pool;
* `gatherCandidates_fills` — distinct eligible posts, as many as there are or fit.

The queries only differ in their joins and filters; the database orders posts of one moment as it
likes, each query anew.
-/

/-! ### The tables -/

/-- `behavior_events.event_type`, as far as the queries look at it. -/
inductive EventType where
  | visible
  | view
  | other
  deriving DecidableEq, Repr

/-- A row of `behavior_events`; `occurredAt` is in microseconds. -/
structure BehaviorEvent where
  userId : Uuid
  postId : Uuid
  eventType : EventType
  occurredAt : Int
  deriving DecidableEq, Repr

/-- The tables that the queries read. -/
structure Database extends Feed.Database where
  events : List BehaviorEvent

/-- `CandidatePost`. -/
structure CandidatePost where
  id : Uuid
  authorId : Uuid
  topics : List String
  safetyScore : Float
  createdAt : Int
  source : String
  content : String
  retrievalScore : Option Float := none

/-- Microseconds in a day. -/
def dayMicros : Int := 86400000000

/-- What the queries of one call know: the viewer, the cooldown in days, and `now()`. -/
structure Viewer where
  userId : Uuid
  seenCooldownDays : Nat
  now : Int

namespace Database

variable (db : Database) (viewer : Viewer)

/-- The viewer has seen the post within the cooldown. -/
def Seen (postId : Uuid) : Prop :=
  viewer.seenCooldownDays ≠ 0
    ∧ ∃ e ∈ db.events, e.userId = viewer.userId ∧ e.postId = postId
      ∧ (e.eventType = .visible ∨ e.eventType = .view)
      ∧ viewer.now - viewer.seenCooldownDays * dayMicros ≤ e.occurredAt

instance (postId : Uuid) : Decidable (db.Seen viewer postId) := inferInstanceAs (Decidable (_ ∧ _))

/-- The `WHERE` clause of every query: `p.status = 'published'` and `_CANDIDATE_EXCLUSION_SQL`. -/
def Allowed (p : Post) : Prop :=
  p.status = .published ∧ ¬ db.Hidden viewer.userId p.id ∧ ¬ db.Reported viewer.userId p.id
    ∧ ¬ db.Seen viewer p.id

instance (p : Post) : Decidable (db.Allowed viewer p) := inferInstanceAs (Decidable (_ ∧ _))

/-- `JOIN users author ON author.id = p.author_id AND author.is_active = true`. -/
def joinActive (posts : List Post) : List Post :=
  posts.flatMap fun p =>
    (db.users.filter fun u => u.id = p.authorId ∧ u.isActive = true).map fun _ => p

end Database

/-! ### The queries -/

/-- How the database answers one query: the order in which it reads its rows, and the time. -/
structure Reply where
  plan : Lib.Plan Post
  now : Int

/-- `ORDER BY p.created_at DESC LIMIT limit`. -/
def Reply.latest (reply : Reply) (limit : Nat) (rows : List Post) : List Post :=
  (stableSort (latestFirst Post.createdAt) (reply.plan.arrange rows)).take limit

/-- `_to_candidates(rows, source)`. -/
def toCandidates (rows : List Post) (source : String) : List CandidatePost :=
  rows.map fun p =>
    { id := p.id
      authorId := p.authorId
      topics := p.topics
      safetyScore := p.safetyScore.toFloat
      createdAt := p.createdAt
      source := source
      content := p.content }

section Queries

variable (db : Database) (viewer : Viewer) (reply : Reply)

/-- `candidates_from_followed`. -/
def candidatesFromFollowed (limit : Nat) : List CandidatePost :=
  toCandidates (reply.latest limit (db.joinActive (db.joinFollows viewer.userId
    (db.posts.filter fun p => db.Allowed viewer p)))) "follow"

/-- `candidates_from_topics`. -/
def candidatesFromTopics (topics : List String) (limit : Nat) : List CandidatePost :=
  let topicList := topics.filter (· ≠ "")
  if topicList = [] then []
  else
    toCandidates (reply.latest limit (db.joinActive (db.posts.filter fun p =>
      db.Allowed viewer p ∧ ∃ topic ∈ p.topics, topic ∈ topicList))) "topic"

/-- `candidates_recent`. -/
def candidatesRecent (limit : Nat) : List CandidatePost :=
  toCandidates (reply.latest limit (db.joinActive (db.posts.filter fun p => db.Allowed viewer p)))
    "recent"

end Queries

/-! ### The pool -/

/-- `by_id.setdefault(c.id, c)`, unless the post is excluded; `byId` has the values of the dict. -/
def add (excluded : List Uuid) (byId : List CandidatePost) (c : CandidatePost) : List CandidatePost :=
  if c.id ∈ excluded ∨ c.id ∈ byId.map CandidatePost.id then byId else byId ++ [c]

/-- The loop over a batch. -/
def merge (excluded : List Uuid) (byId batch : List CandidatePost) : List CandidatePost :=
  batch.foldl (add excluded) byId

/-- The loop over the backfill. -/
def backfill (poolSize : Nat) (excluded : List Uuid) :
    List CandidatePost → List CandidatePost → List CandidatePost
  | byId, [] => byId
  | byId, c :: candidates =>
    if poolSize ≤ (add excluded byId c).length then add excluded byId c
    else backfill poolSize excluded (add excluded byId c) candidates

/-- The queries of one call. -/
inductive Query where
  | followed
  | topics
  | recent
  | backfill
  deriving DecidableEq, Repr

/-- The caller's arguments. -/
structure Request (K : Type*) where
  userId : Uuid
  userVec : OrderedDict String K
  poolSize : Nat
  seenCooldownDays : Nat
  excludePostIds : List Uuid := []
  semanticCandidates : List CandidatePost := []

section Gather

variable {K : Type*} [LinearOrder K] (db : Database) (request : Request K) (replies : Query → Reply)

/-- The viewer as a query sees him. -/
def Request.viewer (query : Query) : Viewer :=
  ⟨request.userId, request.seenCooldownDays, (replies query).now⟩

/-- `sorted(user_vec, key=user_vec.get, reverse=True)[:5]`. -/
def topTopics (userVec : OrderedDict String K) : List String :=
  ((stableSort (fun a b => compare b.2 a.2) userVec).map Prod.fst).take 5

/-- `set(exclude_post_ids)`. -/
def Request.excluded : List Uuid := request.excludePostIds.dedup

/-- `by_id` after the loop over the sources. -/
def gatherSources : List CandidatePost :=
  let followN := max 1 (request.poolSize / 3)
  let topicN := max 1 (request.poolSize / 3)
  let recentN := max 1 (request.poolSize - followN - topicN)
  [request.semanticCandidates.take (request.poolSize / 4),
    candidatesFromFollowed db (request.viewer replies .followed) (replies .followed) followN,
    candidatesFromTopics db (request.viewer replies .topics) (replies .topics)
      (topTopics request.userVec) topicN,
    candidatesRecent db (request.viewer replies .recent) (replies .recent) recentN].foldl
      (merge request.excluded) []

/-- `gather_candidates`. -/
def gatherCandidates : List CandidatePost :=
  if request.poolSize = 0 then []
  else
    let byId := gatherSources db request replies
    let filled :=
      if byId.length < request.poolSize then
        backfill request.poolSize request.excluded byId
          (candidatesRecent db (request.viewer replies .backfill) (replies .backfill)
            (request.poolSize + byId.length + request.excluded.length))
      else byId
    filled.take request.poolSize

end Gather

/-! ### What may be served -/

namespace Database

variable (db : Database) (viewer : Viewer)

/-- The post may be served to the viewer: published, of an active author, neither hidden nor reported
    by the viewer, not seen within the cooldown. -/
def EligiblePost (p : Post) : Prop := db.Allowed viewer p ∧ db.Active p.authorId

instance (p : Post) : Decidable (db.EligiblePost viewer p) := inferInstanceAs (Decidable (_ ∧ _))

/-- The id is that of a post which may be served. -/
def Eligible (id : Uuid) : Prop := ∃ p ∈ db.posts, p.id = id ∧ db.EligiblePost viewer p

/-- The posts that may be served and are not excluded. -/
def eligiblePosts (excluded : List Uuid) : List Post :=
  db.posts.filter fun p => db.EligiblePost viewer p ∧ p.id ∉ excluded

variable {db viewer}

/-- The join with the active users keeps the posts of active authors. -/
theorem mem_joinActive {posts : List Post} {p : Post} :
    p ∈ db.joinActive posts ↔ p ∈ posts ∧ db.Active p.authorId := by
  unfold joinActive
  rw [List.mem_flatMap]
  constructor
  · rintro ⟨q, hq, hp⟩
    obtain ⟨u, hu, rfl⟩ := List.mem_map.mp hp
    obtain ⟨huser, hactive⟩ := List.mem_filter.mp hu
    exact ⟨hq, u, huser, by simpa using hactive⟩
  · rintro ⟨hp, u, hu, hactive⟩
    exact ⟨p, hp, List.mem_map.mpr ⟨u, List.mem_filter.mpr ⟨hu, by simpa using hactive⟩, rfl⟩⟩

/-- Every post is joined once, since the ids of the users are apart. -/
theorem joinActive_eq (posts : List Post) :
    db.joinActive posts = posts.filter fun p => db.Active p.authorId := by
  have hone : ∀ author, (db.users.filter fun u => u.id = author ∧ u.isActive = true).length
      = if db.Active author then 1 else 0 := by
    intro author
    -- two such users would have one id
    have hle : (db.users.filter fun u => u.id = author ∧ u.isActive = true).length ≤ 1 := by
      have hids : ((db.users.filter fun u => u.id = author ∧ u.isActive = true).map (·.id)).Nodup :=
        db.usersKey.sublist (List.filter_sublist.map _)
      have hconst : (db.users.filter fun u => u.id = author ∧ u.isActive = true).map (·.id)
          = List.replicate (db.users.filter fun u => u.id = author ∧ u.isActive = true).length author := by
        refine List.eq_replicate_iff.mpr ⟨by rw [List.length_map], fun id hid => ?_⟩
        obtain ⟨u, hu, rfl⟩ := List.mem_map.mp hid
        exact (of_decide_eq_true (List.mem_filter.mp hu).2).1
      rw [hconst, List.nodup_replicate] at hids
      exact hids
    split
    · next hactive =>
      obtain ⟨u, hu, hid⟩ := hactive
      have hmem : u ∈ db.users.filter fun u => u.id = author ∧ u.isActive = true :=
        List.mem_filter.mpr ⟨hu, by simpa using hid⟩
      have hpos := List.length_pos_of_mem hmem
      omega
    · next hinactive =>
      rw [List.length_eq_zero_iff, List.filter_eq_nil_iff]
      intro u hu hid
      exact hinactive ⟨u, hu, of_decide_eq_true hid⟩
  unfold joinActive
  induction posts with
  | nil => rfl
  | cons p posts ih =>
    rw [List.flatMap_cons, ih, List.map_const', hone p.authorId]
    by_cases hactive : db.Active p.authorId
    · rw [if_pos hactive, List.filter_cons_of_pos (by simpa using hactive)]
      rfl
    · rw [if_neg hactive, List.filter_cons_of_neg (by simpa using hactive)]
      rfl

/-- What was not seen within the cooldown is not later on. -/
theorem Allowed.later {now : Int} {p : Post} (h : db.Allowed viewer p) (hnow : viewer.now ≤ now) :
    db.Allowed { viewer with now } p := by
  obtain ⟨hpublished, hhidden, hreported, hseen⟩ := h
  refine ⟨hpublished, hhidden, hreported, ?_⟩
  rintro ⟨hcooldown, e, he, hviewer, hpost, htype, hrecent⟩
  refine hseen ⟨hcooldown, e, he, hviewer, hpost, htype, ?_⟩
  -- a later clock looks back less far
  have hsince : now - viewer.seenCooldownDays * dayMicros ≤ e.occurredAt := hrecent
  omega

end Database

/-! ### Merging -/

section Merge

variable {excluded : List Uuid} {byId batch : List CandidatePost} {c : CandidatePost} {poolSize : Nat}

theorem add_cases (excluded : List Uuid) (byId : List CandidatePost) (c : CandidatePost) :
    add excluded byId c = byId ∧ (c.id ∈ excluded ∨ c.id ∈ byId.map CandidatePost.id)
    ∨ add excluded byId c = byId ++ [c] ∧ c.id ∉ excluded ∧ c.id ∉ byId.map CandidatePost.id := by
  unfold add
  split
  · next hskip => exact Or.inl ⟨rfl, hskip⟩
  · next hnew => exact Or.inr ⟨rfl, not_or.mp hnew⟩

/-- Each candidate is there once. -/
theorem nodup_merge (h : (byId.map CandidatePost.id).Nodup) :
    ((merge excluded byId batch).map CandidatePost.id).Nodup := by
  unfold merge
  induction batch generalizing byId with
  | nil => exact h
  | cons c batch ih =>
    rw [List.foldl_cons]
    apply ih
    rcases add_cases excluded byId c with ⟨hsame, -⟩ | ⟨hadded, -, hnew⟩
    · rw [hsame]
      exact h
    · rw [hadded, List.map_append, List.map_singleton]
      exact h.append (List.nodup_singleton _) (List.disjoint_singleton.mpr hnew)

/-- The ids that are merged. -/
theorem mem_ids_merge {id : Uuid} :
    id ∈ (merge excluded byId batch).map CandidatePost.id
      ↔ id ∈ byId.map CandidatePost.id ∨ id ∈ batch.map CandidatePost.id ∧ id ∉ excluded := by
  unfold merge
  induction batch generalizing byId with
  | nil => simp
  | cons c batch ih =>
    rw [List.foldl_cons, ih, List.map_cons, List.mem_cons]
    -- a candidate is skipped where its id is excluded or there
    rcases add_cases excluded byId c with ⟨hsame, hskip⟩ | ⟨hadded, hin, -⟩
    · rw [hsame]
      constructor
      · rintro (hold | ⟨hbatch, hout⟩)
        · exact Or.inl hold
        · exact Or.inr ⟨Or.inr hbatch, hout⟩
      · rintro (hold | ⟨rfl | hbatch, hout⟩)
        · exact Or.inl hold
        · exact Or.inl (hskip.resolve_left hout)
        · exact Or.inr ⟨hbatch, hout⟩
    · rw [hadded, List.map_append, List.mem_append, List.map_singleton, List.mem_singleton]
      constructor
      · rintro ((hold | rfl) | ⟨hbatch, hout⟩)
        · exact Or.inl hold
        · exact Or.inr ⟨Or.inl rfl, hin⟩
        · exact Or.inr ⟨Or.inr hbatch, hout⟩
      · rintro (hold | ⟨rfl | hbatch, hout⟩)
        · exact Or.inl (Or.inl hold)
        · exact Or.inl (Or.inr rfl)
        · exact Or.inr ⟨hbatch, hout⟩

/-- Merging only appends. -/
theorem prefix_merge (excluded : List Uuid) (byId batch : List CandidatePost) :
    byId <+: merge excluded byId batch := by
  unfold merge
  induction batch generalizing byId with
  | nil => exact List.prefix_rfl
  | cons c batch ih =>
    rw [List.foldl_cons]
    refine List.IsPrefix.trans ?_ (ih (add excluded byId c))
    rcases add_cases excluded byId c with ⟨hsame, -⟩ | ⟨hadded, -⟩
    · exact ⟨[], by rw [List.append_nil, hsame]⟩
    · rw [hadded]
      exact List.prefix_append _ _

/-- The backfill stops at the size of the pool. -/
theorem backfill_eq (h : byId.length < poolSize) :
    backfill poolSize excluded byId batch = (merge excluded byId batch).take poolSize := by
  induction batch generalizing byId with
  | nil => exact (List.take_of_length_le h.le).symm
  | cons c batch ih =>
    show (if poolSize ≤ _ then _ else _) = (merge excluded (add excluded byId c) batch).take poolSize
    split
    · next hfull =>
      have hlength : (add excluded byId c).length = poolSize := by
        rcases add_cases excluded byId c with ⟨hsame, -⟩ | ⟨hadded, -⟩
        · rw [hsame] at hfull ⊢
          omega
        · rw [hadded, List.length_append, List.length_singleton] at hfull ⊢
          omega
      -- what would still be merged comes after the pool
      rw [← hlength]
      exact List.prefix_iff_eq_take.mp (prefix_merge excluded (add excluded byId c) batch)
    · next hmore => exact ih (not_le.mp hmore)

end Merge

/-! ### What the queries return -/

section Answers

variable {db : Database} {viewer : Viewer} {reply : Reply} {limit : Nat} {id : Uuid}

theorem ids_toCandidates (rows : List Post) (source : String) :
    (toCandidates rows source).map CandidatePost.id = rows.map Post.id := by
  unfold toCandidates
  rw [List.map_map]
  rfl

/-- A query returns rows that it was given. -/
theorem Reply.mem_latest {rows : List Post} {p : Post} (h : p ∈ reply.latest limit rows) : p ∈ rows :=
  (Lib.answer_stableSort (reply.plan.perm rows)).mem h

/-- The followed authors' posts are eligible. -/
theorem eligible_of_followed
    (h : id ∈ (candidatesFromFollowed db viewer reply limit).map CandidatePost.id) :
    db.Eligible viewer id := by
  unfold candidatesFromFollowed at h
  rw [ids_toCandidates] at h
  obtain ⟨p, hp, rfl⟩ := List.mem_map.mp h
  obtain ⟨hjoined, hactive⟩ := Database.mem_joinActive.mp (Reply.mem_latest hp)
  rw [Feed.Database.joinFollows_eq] at hjoined
  obtain ⟨hpost, hallowed⟩ := List.mem_filter.mp (List.mem_of_mem_filter hjoined)
  exact ⟨p, hpost, rfl, of_decide_eq_true hallowed, hactive⟩

theorem eligible_of_topics {topics : List String}
    (h : id ∈ (candidatesFromTopics db viewer reply topics limit).map CandidatePost.id) :
    db.Eligible viewer id := by
  unfold candidatesFromTopics at h
  dsimp only at h
  split at h
  · cases h
  · rw [ids_toCandidates] at h
    obtain ⟨p, hp, rfl⟩ := List.mem_map.mp h
    obtain ⟨hjoined, hactive⟩ := Database.mem_joinActive.mp (Reply.mem_latest hp)
    obtain ⟨hpost, hallowed⟩ := List.mem_filter.mp hjoined
    exact ⟨p, hpost, rfl, (of_decide_eq_true hallowed).1, hactive⟩

theorem eligible_of_recent
    (h : id ∈ (candidatesRecent db viewer reply limit).map CandidatePost.id) :
    db.Eligible viewer id := by
  unfold candidatesRecent at h
  rw [ids_toCandidates] at h
  obtain ⟨p, hp, rfl⟩ := List.mem_map.mp h
  obtain ⟨hjoined, hactive⟩ := Database.mem_joinActive.mp (Reply.mem_latest hp)
  obtain ⟨hpost, hallowed⟩ := List.mem_filter.mp hjoined
  exact ⟨p, hpost, rfl, of_decide_eq_true hallowed, hactive⟩

/-- The posts that may be served are apart. -/
theorem nodup_eligible : ((db.eligiblePosts viewer []).map Post.id).Nodup :=
  db.postsKey.sublist (List.filter_sublist.map _)

/-- **The recent posts**: as many of the eligible ones as the limit allows, each once. -/
theorem candidatesRecent_spec (db : Database) (viewer : Viewer) (reply : Reply) (limit : Nat) :
    ((candidatesRecent db viewer reply limit).map CandidatePost.id).Nodup
      ∧ (candidatesRecent db viewer reply limit).length
        = min limit (db.eligiblePosts viewer []).length
      ∧ ((db.eligiblePosts viewer []).length ≤ limit → ∀ id, db.Eligible viewer id →
        id ∈ (candidatesRecent db viewer reply limit).map CandidatePost.id) := by
  have hrows : db.joinActive (db.posts.filter fun p => db.Allowed viewer p)
      = db.eligiblePosts viewer [] := by
    rw [Database.joinActive_eq, List.filter_filter]
    unfold Database.eligiblePosts
    refine List.filter_congr fun p _ => ?_
    simp [Database.EligiblePost, and_comm]
  have hperm : (stableSort (latestFirst Post.createdAt)
      (reply.plan.arrange (db.eligiblePosts viewer []))).Perm (db.eligiblePosts viewer []) :=
    (Lib.stableSort_perm _ _).trans (reply.plan.perm _)
  have hsorted : ((stableSort (latestFirst Post.createdAt)
      (reply.plan.arrange (db.eligiblePosts viewer []))).map Post.id).Nodup :=
    (hperm.map _).nodup_iff.mpr nodup_eligible
  unfold candidatesRecent
  rw [hrows, ids_toCandidates]
  refine ⟨hsorted.sublist ((List.take_sublist _ _).map _), ?_, fun hfits id hid => ?_⟩
  · unfold toCandidates Reply.latest
    rw [List.length_map, List.length_take, hperm.length_eq]
  · obtain ⟨p, hp, rfl, heligible⟩ := hid
    refine List.mem_map_of_mem ?_
    unfold Reply.latest
    rw [List.take_of_length_le (hperm.length_eq.trans_le hfits)]
    exact hperm.mem_iff.mpr (List.mem_filter.mpr ⟨hp, by simpa using heligible⟩)

end Answers

/-! ### The pool as a whole -/

section Pool

variable {K : Type*} [LinearOrder K] {db : Database} {request : Request K} {replies : Query → Reply}

/-- What may be served may be served later on. -/
theorem eligible_later {viewer : Viewer} {now : Int} {id : Uuid} (h : db.Eligible viewer id)
    (hnow : viewer.now ≤ now) : db.Eligible { viewer with now } id := by
  obtain ⟨p, hp, hid, hallowed, hactive⟩ := h
  exact ⟨p, hp, hid, hallowed.later hnow, hactive⟩

/-- The sources give distinct eligible posts that are not excluded. -/
theorem gatherSources_spec (hclock : ∀ query, (replies query).now ≤ (replies .backfill).now)
    (hsemantic : ∀ c ∈ request.semanticCandidates,
      db.Eligible (request.viewer replies .backfill) c.id) :
    ((gatherSources db request replies).map CandidatePost.id).Nodup
      ∧ ∀ id ∈ (gatherSources db request replies).map CandidatePost.id,
        db.Eligible (request.viewer replies .backfill) id ∧ id ∉ request.excluded := by
  unfold gatherSources
  dsimp only [List.foldl]
  refine ⟨nodup_merge (nodup_merge (nodup_merge (nodup_merge List.nodup_nil))), fun id hid => ?_⟩
  -- each id comes from one of the four sources
  rw [mem_ids_merge, mem_ids_merge, mem_ids_merge, mem_ids_merge] at hid
  rcases hid with (((hnil | ⟨hin, hout⟩) | ⟨hin, hout⟩) | ⟨hin, hout⟩) | ⟨hin, hout⟩
  · cases hnil
  · obtain ⟨c, hc, rfl⟩ := List.mem_map.mp hin
    exact ⟨hsemantic c (List.mem_of_mem_take hc), hout⟩
  · exact ⟨eligible_later (eligible_of_followed hin) (hclock .followed), hout⟩
  · exact ⟨eligible_later (eligible_of_topics hin) (hclock .topics), hout⟩
  · exact ⟨eligible_later (eligible_of_recent hin) (hclock .recent), hout⟩

/-- **The pool** is what is merged, up to its size. -/
theorem gatherCandidates_eq (hpool : 0 < request.poolSize) :
    gatherCandidates db request replies
      = (merge request.excluded (gatherSources db request replies)
        (if (gatherSources db request replies).length < request.poolSize then
          candidatesRecent db (request.viewer replies .backfill) (replies .backfill)
            (request.poolSize + (gatherSources db request replies).length + request.excluded.length)
        else [])).take request.poolSize := by
  unfold gatherCandidates
  rw [if_neg (by omega)]
  dsimp only
  split
  · next hshort => rw [backfill_eq hshort, List.take_take, Nat.min_self]
  · rfl

/-- **Filling the pool.**  For every database, viewer, preference vector, exclusions and eligible
    semantic candidates, and whatever order the queries choose among posts of one moment, the pool has
    distinct posts that may be served and are not excluded: as many as there are, up to its size. -/
theorem gatherCandidates_fills (hpool : 0 < request.poolSize)
    (hclock : ∀ query, (replies query).now ≤ (replies .backfill).now)
    (hsemantic : ∀ c ∈ request.semanticCandidates,
      db.Eligible (request.viewer replies .backfill) c.id) :
    ((gatherCandidates db request replies).map CandidatePost.id).Nodup
      ∧ (∀ c ∈ gatherCandidates db request replies,
        db.Eligible (request.viewer replies .backfill) c.id ∧ c.id ∉ request.excludePostIds)
      ∧ (gatherCandidates db request replies).length = min request.poolSize
        (db.eligiblePosts (request.viewer replies .backfill) request.excludePostIds).length := by
  obtain ⟨hnodup, hsources⟩ := gatherSources_spec hclock hsemantic
  rw [gatherCandidates_eq hpool]
  generalize hS : gatherSources db request replies = sources at *
  set viewer := request.viewer replies .backfill
  set extra := if sources.length < request.poolSize then candidatesRecent db viewer
    (replies .backfill) (request.poolSize + sources.length + request.excluded.length) else [] with hextra
  have hids : ((merge request.excluded sources extra).map CandidatePost.id).Nodup := nodup_merge hnodup
  have hmerged : ∀ id ∈ (merge request.excluded sources extra).map CandidatePost.id,
      db.Eligible viewer id ∧ id ∉ request.excludePostIds := by
    intro id hid
    have hout : id ∉ request.excluded → id ∉ request.excludePostIds := fun h => by
      rwa [Request.excluded, List.mem_dedup] at h
    rcases mem_ids_merge.mp hid with hold | ⟨hnew, hin⟩
    · exact ⟨(hsources id hold).1, hout (hsources id hold).2⟩
    · refine ⟨?_, hout hin⟩
      rw [hextra] at hnew
      split at hnew
      · exact eligible_of_recent hnew
      · cases hnew
  have heligibleIds : ((db.eligiblePosts viewer request.excludePostIds).map Post.id).Nodup :=
    db.postsKey.sublist (List.filter_sublist.map _)
  -- there are no more merged posts than eligible ones
  have hle : (merge request.excluded sources extra).length
      ≤ (db.eligiblePosts viewer request.excludePostIds).length := by
    have hsub : (merge request.excluded sources extra).map CandidatePost.id
        ⊆ (db.eligiblePosts viewer request.excludePostIds).map Post.id := by
      intro id hid
      obtain ⟨⟨p, hp, rfl, heligible⟩, hout⟩ := hmerged id hid
      exact List.mem_map_of_mem (List.mem_filter.mpr ⟨hp, by simpa using ⟨heligible, hout⟩⟩)
    have hlength := (List.subperm_of_subset hids hsub).length_le
    rwa [List.length_map, List.length_map] at hlength
  refine ⟨hids.sublist ((List.take_sublist _ _).map _), fun c hc => ?_, ?_⟩
  · exact hmerged c.id (List.mem_map_of_mem (List.mem_of_mem_take hc))
  rw [List.length_take]
  by_cases hshort : sources.length < request.poolSize
  · -- the sources leave places, which the backfill fills
    rw [if_pos hshort] at hextra
    obtain ⟨hfetched, hcount, hall⟩ := candidatesRecent_spec db viewer (replies .backfill)
      (request.poolSize + sources.length + request.excluded.length)
    rw [← hextra] at hfetched hcount hall
    by_cases hfits : (db.eligiblePosts viewer []).length
        ≤ request.poolSize + sources.length + request.excluded.length
    · -- all eligible posts were fetched
      have hge : (db.eligiblePosts viewer request.excludePostIds).length
          ≤ (merge request.excluded sources extra).length := by
        have hsub : (db.eligiblePosts viewer request.excludePostIds).map Post.id
            ⊆ (merge request.excluded sources extra).map CandidatePost.id := by
          intro id hid
          obtain ⟨p, hp, rfl⟩ := List.mem_map.mp hid
          obtain ⟨hpost, hsel⟩ := List.mem_filter.mp hp
          obtain ⟨heligible, hout⟩ := of_decide_eq_true hsel
          rw [mem_ids_merge]
          refine Or.inr ⟨hall hfits p.id ⟨p, hpost, rfl, heligible⟩, ?_⟩
          rwa [Request.excluded, List.mem_dedup]
        have hlength := (List.subperm_of_subset heligibleIds hsub).length_le
        rwa [List.length_map, List.length_map] at hlength
      omega
    · -- what was fetched is merged or excluded, and enough of it is left
      have hsub : extra.map CandidatePost.id
          ⊆ (merge request.excluded sources extra).map CandidatePost.id ++ request.excluded := by
        intro id hid
        by_cases hout : id ∈ request.excluded
        · exact List.mem_append_right _ hout
        · exact List.mem_append_left _ (mem_ids_merge.mpr (Or.inr ⟨hid, hout⟩))
      have hlength := (List.subperm_of_subset hfetched hsub).length_le
      rw [List.length_map, List.length_append, List.length_map] at hlength
      omega
  · -- the sources alone fill the pool
    have hprefix := (prefix_merge request.excluded sources extra).length_le
    omega

end Pool

/-! ### An example -/

/-- The order of the table. -/
private def asStored (now : Int) : Reply := ⟨⟨fun l => l, fun l => List.Perm.refl l⟩, now⟩

/-- User 1 follows user 2.  Of the five posts of user 2 he has hidden the first, and seen the second a
    year ago. -/
def fivePosts : Database where
  users := [⟨1, "ann", none, none, true⟩, ⟨2, "bob", none, none, true⟩]
  posts := [⟨11, 2, "one", ["ai"], 1, .published, 5⟩, ⟨12, 2, "two", [], 1, .published, 5⟩,
    ⟨13, 2, "three", [], 1, .published, 7⟩, ⟨14, 2, "four", ["ai"], 1, .published, 9⟩,
    ⟨15, 2, "five", ["food"], 1, .published, 3⟩]
  follows := [⟨1, 2⟩]
  interactions := [⟨1, 11, .hide⟩]
  reports := []
  usersKey := by decide
  postsKey := by decide
  followsKey := by decide
  authorsExist := by
    intro p hp
    refine ⟨⟨2, "bob", none, none, true⟩, by simp, ?_⟩
    simp only [List.mem_cons, List.not_mem_nil, or_false] at hp
    rcases hp with rfl | rfl | rfl | rfl | rfl <;> rfl
  events := [⟨1, 12, .view, 0⟩]

/-- The last of them, as the semantic search has found it. -/
def semanticFive : List CandidatePost :=
  toCandidates [⟨15, 2, "five", ["food"], 1, .published, 3⟩] "semantic"

/-- A pool of four, without the third post, gets the other three, one of them from the search. -/
theorem gatherCandidates_fivePosts :
    (gatherCandidates fivePosts (⟨1, [("ai", (1 : Int))], 4, 7, [13], semanticFive⟩ : Request Int)
      (fun _ => asStored 31536000000000)).length = 3 := by
  have hsemantic : ∀ c ∈ semanticFive, fivePosts.Eligible ⟨1, 7, 31536000000000⟩ c.id := by
    intro c hc
    obtain rfl := List.mem_singleton.mp hc
    exact ⟨⟨15, 2, "five", ["food"], 1, .published, 3⟩, by simp [fivePosts], rfl, by decide⟩
  obtain ⟨-, -, hlength⟩ := @gatherCandidates_fills Int _ fivePosts
    ⟨1, [("ai", (1 : Int))], 4, 7, [13], semanticFive⟩ (fun _ => asStored 31536000000000) (by decide)
    (fun _ => le_rfl) hsemantic
  rw [hlength]
  decide

end Oecophylla.Recommendation.Candidates
