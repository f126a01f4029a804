import Mathlib.Algebra.Group.Nat.Defs
import Mathlib.Algebra.Group.Int.Defs
import Oecophylla.Feed.Database

namespace Oecophylla.Feed

/-!
# The feed service — `feed-service/src/handlers.rs`

One request to `get_feed`.  What the service finds outside (Redis, the recommendation API, failures
of the database) is in `AppState`, next to the tables; texts of times and ids are read and written
by other crates, `Crates`.

* `getFeed` — the handler, with `followingFeedHandler` and `trendingFeedHandler` for two modes;
* `loadOrBuildFeed`, `fallbackFeed` — the fallback ladder: the cached feed, the recommendation API,
  the trending set of Redis, the recent posts;
* `trendingIds` — the first entries of the trending set.

The entry that the handler writes to the cache and the rows of the impressions are left out: no
page is made from them in the same request.
-/

/-- `AppError`. -/
inductive AppError where
  | unauthorized
  | other
  deriving DecidableEq, Repr

/-- What `chrono` and `uuid` read and write. -/
structure Crates where
  parseUuid : String → Option Uuid
  parseFromRfc3339 : String → Option Int
  uuidText : Uuid → String
  toRfc3339 : Int → String

/-! ### Machine integers -/

/-- `a + b` on `usize`. -/
def addUsize (a b : Nat) : Nat := (a + b) % 2 ^ 64

/-- `a as isize`. -/
def asIsize (a : Nat) : Int := if a < 2 ^ 63 then a else a - 2 ^ 64

/-- `s.parse::<usize>()`. -/
def parseUsize (s : String) : Option Nat :=
  let cs := if s.toList.head? = some '+' then s.toList.tail else s.toList
  let n := cs.foldl (fun n c => n * 10 + (c.toNat - '0'.toNat)) 0
  if cs ≠ [] ∧ cs.all Char.isDigit ∧ n < 2 ^ 64 then some n else none

/-! ### Types (`types.rs`, `recommendation.rs`) -/

/-- `RankFeatureSchemaVersion`. -/
inductive RankFeatureSchemaVersion where
  | v1
  | v2
  deriving DecidableEq, Repr

/-- `RankFeatureSnapshot`: the fields that the feed service sets.  The ranker's own fields travel
    with them. -/
structure RankFeatureSnapshot where
  schemaVersion : RankFeatureSchemaVersion
  candidateSource : String
  safetyScore : Option Float

/-- `RankFeatureSnapshot::unranked`. -/
def RankFeatureSnapshot.unranked (candidateSource : String) : RankFeatureSnapshot where
  schemaVersion := .v1
  candidateSource := candidateSource
  safetyScore := none

/-- `RecommendationItem`. -/
structure RecommendationItem where
  postId : Uuid
  score : Float32
  source : String
  reason : String
  features : RankFeatureSnapshot

/-- `RecommendFeedResponse`. -/
structure RecommendFeedResponse where
  items : List RecommendationItem
  modelVersion : String

/-- `CachedFeedItem`. -/
structure CachedFeedItem where
  postId : Uuid
  score : Float32
  source : String
  reason : String
  features : RankFeatureSnapshot

/-- `CachedFeed`. -/
structure CachedFeed where
  generatedAt : Int
  source : String
  modelVersion : String
  items : List CachedFeedItem

/-- `FeedRank`. -/
structure FeedRank where
  score : Float32
  source : String
  reason : String

/-- `FeedItem`. -/
structure FeedItem where
  post : FeedPostRow
  rank : FeedRank
  impressionId : Option Uuid
  position : Nat
  featureSnapshot : RankFeatureSnapshot

/-- `FeedResponse`. -/
structure FeedResponse where
  requestId : Uuid
  modelVersion : String
  items : List FeedItem
  nextCursor : Option String
  source : String
  generatedAt : Int

/-- `FeedQuery`. -/
structure FeedQuery where
  cursor : Option String
  limit : Option Nat
  mode : Option String
  deriving DecidableEq, Repr

/-- What a request meets: the tables, the configuration, the answers of the other services, and
    the fresh ids and the time. -/
structure AppState where
  db : Database
  /-- `feed_cfg.feed_result_size`. -/
  feedResultSize : Nat
  /-- `feed_cfg.impression_logging_enabled`. -/
  impressionLoggingEnabled : Bool
  /-- What `get_cached_feed` returns. -/
  cachedFeed : Except AppError (Option CachedFeed)
  /-- What `recommend_feed` returns. -/
  recommendFeed : Except AppError RecommendFeedResponse
  /-- The sorted set `trending:24h`, the highest score first, or that Redis fails. -/
  trending : Except AppError (List (String × Float))
  /-- Whether `recent_published` fails. -/
  recentFails : Bool
  /-- Whether the query that fills the page fails. -/
  pageFails : Bool
  /-- Whether `insert_recommendation_impressions` succeeds. -/
  impressionsStored : Bool
  requestId : Uuid
  impressionId : Nat → Uuid
  now : Int

variable (lib : Crates) (s : AppState)

/-! ### Reading the sources -/

/-- `ZREVRANGE key 0 stop`: a negative `stop` counts from the end. -/
def zrevrange {α : Type} (entries : List α) (stop : Int) : List α :=
  if 0 ≤ stop then entries.take (stop.toNat + 1) else entries.take (entries.length + stop + 1).toNat

/-- `trending_ids(redis, limit)`, on the entries of the set. -/
def trendingIds (entries : List (String × Float)) (limit : Nat) : List (Uuid × Float) :=
  (zrevrange entries (max (asIsize limit - 1) (-2 ^ 63))).filterMap fun entry =>
    (lib.parseUuid entry.1).map fun id => (id, entry.2)

/-- `repo::hydrate_posts(&s.db, &ids)`: the database is asked only when there are ids. -/
def hydratePosts (ids : List Uuid) : Except AppError (List FeedPostRow) :=
  if ids.isEmpty then .ok []
  else if s.pageFails then .error .other
  else .ok (s.db.hydratePosts ids)

/-- `parse_cursor(raw)`. -/
def parseCursor (raw : Option String) : Nat := (raw.bind parseUsize).getD 0

/-- The cursor of the following feed: `timestamp|id`. -/
def parseFollowingCursor (cursor : Option String) : Option (Int × Uuid) := do
  let c ← cursor
  match c.toList.span (· ≠ '|') with
  | (ts, _ :: id) =>
    let dt ← lib.parseFromRfc3339 (String.ofList ts)
    let uuid ← lib.parseUuid (String.ofList id)
    some (dt, uuid)
  | (_, []) => none

/-- An item of the recommendation API as the cache keeps it. -/
def RecommendationItem.toCached (i : RecommendationItem) : CachedFeedItem :=
  ⟨i.postId, i.score, i.source, i.reason, i.features⟩

/-- `build_cached_feed(source, model_version, items)`. -/
def buildCachedFeed (source modelVersion : String) (items : List RecommendationItem) :
    CachedFeed where
  generatedAt := s.now
  source := source
  modelVersion := modelVersion
  items := items.map RecommendationItem.toCached

/-- The item of a trending id. -/
def trendingItem (entry : Uuid × Float) : RecommendationItem where
  postId := entry.1
  score := entry.2.toFloat32
  source := "trending"
  reason := "redis-zset"
  features := .unranked "trending"

/-- The item of a recent post. -/
def recentItem (p : FeedPostRow) : RecommendationItem where
  postId := p.id
  score := 0.0
  source := "recent"
  reason := "fallback-recent"
  features := { RankFeatureSnapshot.unranked "recent" with safetyScore := some p.safetyScore.toFloat }

/-- `recent_published(…).await.unwrap_or_default()`. -/
def recentRows : List FeedPostRow :=
  if s.recentFails then [] else s.db.recentPublished s.feedResultSize

/-- `fallback_feed(s, user_id)`. -/
def fallbackFeed : CachedFeed × String :=
  let scored := match s.trending with
    | .ok entries => trendingIds lib entries s.feedResultSize
    | .error _ => []
  if scored.isEmpty then
    (buildCachedFeed s "fallback" "fallback-recent-v1" ((recentRows s).map recentItem), "fallback")
  else
    (buildCachedFeed s "fallback" "fallback-trending-v1" (scored.map trendingItem), "fallback")

/-- `load_or_build_feed(s, user_id)`. -/
def loadOrBuildFeed : CachedFeed × String :=
  match s.cachedFeed with
  | .ok (some feed) => (feed, "cache")
  | _ =>
    match s.recommendFeed with
    | .ok result =>
      if result.items.isEmpty then fallbackFeed lib s
      else (buildCachedFeed s "personalized" result.modelVersion result.items, "personalized")
    | .error _ => fallbackFeed lib s

/-! ### Pages -/

/-- `finalize_feed_response`: positions, and the ids of the impressions when they were stored. -/
def finalizeFeedResponse (items : List FeedItem) (nextCursor : Option String)
    (source modelVersion : String) (generatedAt : Int) : FeedResponse where
  requestId := s.requestId
  modelVersion := modelVersion
  items := items.mapIdx fun position item => { item with
    position := position
    impressionId :=
      if s.impressionLoggingEnabled ∧ s.impressionsStored then some (s.impressionId position)
      else none }
  nextCursor := nextCursor
  source := source
  generatedAt := generatedAt

/-- `q.limit.unwrap_or(DEFAULT_PAGE_SIZE).clamp(1, MAX_PAGE_SIZE)`. -/
def FeedQuery.pageSize (q : FeedQuery) : Nat := min (max (q.limit.getD 20) 1) 50

/-- The item of a post of the following feed. -/
def followingItem (post : FeedPostRow) : FeedItem where
  rank := ⟨0.0, "following", "follow-graph"⟩
  post := post
  impressionId := none
  position := 0
  featureSnapshot :=
    { RankFeatureSnapshot.unranked "following" with safetyScore := some post.safetyScore.toFloat }

/-- `following_feed_handler(s, user_id, cursor, limit)`. -/
def followingFeedHandler (userId : Uuid) (cursor : Option String) (limit : Nat) :
    Except AppError FeedResponse :=
  if s.pageFails then .error .other
  else
    let rows := s.db.followingFeed userId (parseFollowingCursor lib cursor) limit
    let next := if rows.length = limit then
        rows.getLast?.map fun r => lib.toRfc3339 r.createdAt ++ "|" ++ lib.uuidText r.id
      else none
    .ok (finalizeFeedResponse s (rows.map followingItem) next "following" "following-v1" s.now)

/-- `&items[offset..slice_end]` with `slice_end = (offset + limit).min(total)`, empty when the
    offset is not inside. -/
def pageSlice {α : Type} (items : List α) (offset limit : Nat) : List α :=
  if items.length ≤ offset then []
  else (items.take (min (addUsize offset limit) items.length)).drop offset

/-- `slice_end`, when it is not the end. -/
def nextOffset (total offset limit : Nat) : Option String :=
  let sliceEnd := min (addUsize offset limit) total
  if sliceEnd < total then some (toString sliceEnd) else none

/-- The item of a post of the trending feed; the scores are those of the slice, the last one for
    an id that it has twice. -/
def trendingFeedItem (slice : List (Uuid × Float)) (post : FeedPostRow) : FeedItem where
  rank := ⟨((slice.reverse.lookup post.id).getD 0.0).toFloat32, "trending", "redis-zset"⟩
  post := post
  impressionId := none
  position := 0
  featureSnapshot :=
    { RankFeatureSnapshot.unranked "trending" with safetyScore := some post.safetyScore.toFloat }

/-- `trending_feed_handler(s, user_id, cursor, limit)`. -/
def trendingFeedHandler (cursor : Option String) (limit : Nat) : Except AppError FeedResponse := do
  let offset := parseCursor cursor
  let poolSize := addUsize (addUsize offset limit) 50
  let entries ← s.trending
  let scored := trendingIds lib entries poolSize
  if scored.isEmpty then
    pure (finalizeFeedResponse s [] none "trending" "trending-v1" s.now)
  else
    let slice := pageSlice scored offset limit
    let posts ← hydratePosts s (slice.map Prod.fst)
    pure (finalizeFeedResponse s (posts.map (trendingFeedItem slice))
      (nextOffset scored.length offset limit) "trending" "trending-v1" s.now)

/-- The item of a post of a loaded feed, with what the feed says of it. -/
def feedItem (slice : List CachedFeedItem) (post : FeedPostRow) : Option FeedItem := do
  let cached ← slice.find? fun c => c.postId = post.id
  some {
    rank := ⟨cached.score, cached.source, cached.reason⟩
    post := post
    impressionId := none
    position := 0
    featureSnapshot := cached.features }

/-- `get_feed`; `me` is what `current` returns. -/
def getFeed (me : Except AppError (Option Uuid)) (q : FeedQuery) : Except AppError FeedResponse := do
  match ← me with
  | none => .error .unauthorized
  | some userId =>
    let limit := q.pageSize
    if q.mode = some "following" then followingFeedHandler lib s userId q.cursor limit
    else if q.mode = some "trending" then trendingFeedHandler lib s q.cursor limit
    else
      let offset := parseCursor q.cursor
      let (cached, source) := loadOrBuildFeed lib s
      let slice := pageSlice cached.items offset limit
      let posts ← hydratePosts s (slice.map CachedFeedItem.postId)
      pure (finalizeFeedResponse s (posts.filterMap (feedItem slice))
        (nextOffset cached.items.length offset limit) source cached.modelVersion cached.generatedAt)

end Oecophylla.Feed
