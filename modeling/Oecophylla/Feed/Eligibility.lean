import Oecophylla.Feed.Handlers
import Oecophylla.Lib.Except

namespace Oecophylla.Feed

/-!
# What a page of the feed may contain a viewer should not see

Every page is made of published posts, whatever the sources answer.  The other rules (hidden by the
viewer, reported by the viewer, author not active) are not checked on any path, so that a page obeys
them exactly when the source that answers does not offer a post that breaks them.

* `Rung` — the posts that the fallback ladder offers for a page, rung by rung;
* `Offered` — the posts that a request is offered, by mode;
* `mem_page_iff` — the page has the published posts that are offered, and no others;
* `published_of_mem_page` — every page is made of published posts;
* `pageEligible_iff` — a page obeys every rule exactly when no published post that is offered breaks one.
-/

variable {lib : Crates} {s : AppState}

/-! ### Positions -/

/-- The position belongs to the page. -/
def OnPage (q : FeedQuery) (i : Nat) : Prop :=
  parseCursor q.cursor ≤ i ∧ i < addUsize (parseCursor q.cursor) q.pageSize

theorem mem_pageSlice_iff {α : Type} {items : List α} {q : FeedQuery} {x : α} :
    x ∈ pageSlice items (parseCursor q.cursor) q.pageSize ↔ ∃ i, OnPage q i ∧ items[i]? = some x := by
  unfold pageSlice OnPage
  split
  · next hle =>
    refine ⟨nofun, ?_⟩
    rintro ⟨i, ⟨hfrom, -⟩, hi⟩
    have hlt : i < items.length := (List.getElem?_eq_some_iff.mp hi).1
    omega
  · rw [Lib.mem_slice_iff]
    constructor
    · rintro ⟨i, hfrom, hto, hi⟩
      exact ⟨i, ⟨hfrom, by omega⟩, hi⟩
    · rintro ⟨i, ⟨hfrom, hto⟩, hi⟩
      have hlt : i < items.length := (List.getElem?_eq_some_iff.mp hi).1
      exact ⟨i, hfrom, by omega, hi⟩

/-- Mapping the items maps what the page has. -/
theorem exists_mem_pageSlice_iff {α : Type} {items : List α} {q : FeedQuery} {P : α → Prop} :
    (∃ x ∈ pageSlice items (parseCursor q.cursor) q.pageSize, P x)
      ↔ ∃ i, OnPage q i ∧ ∃ x, items[i]? = some x ∧ P x := by
  simp only [mem_pageSlice_iff]
  constructor
  · rintro ⟨x, ⟨i, hpage, hi⟩, hx⟩
    exact ⟨i, hpage, x, hi, hx⟩
  · rintro ⟨i, hpage, x, hi, hx⟩
    exact ⟨x, ⟨i, hpage, hi⟩, hx⟩

/-! ### What the sources offer -/

/-- The modes whose handler climbs the ladder. -/
def FeedQuery.Ranked (q : FeedQuery) : Prop := q.mode ≠ some "following" ∧ q.mode ≠ some "trending"

/-- There is no cached feed. -/
def AppState.Uncached (s : AppState) : Prop := ∀ feed, s.cachedFeed ≠ .ok (some feed)

/-- The recommendation API returns no items. -/
def AppState.Unranked (s : AppState) : Prop := ∀ result, s.recommendFeed = .ok result → result.items = []

/-- The trending set has no posts. -/
def AppState.NoTrending (lib : Crates) (s : AppState) : Prop :=
  ∀ entries, s.trending = .ok entries → trendingIds lib entries s.feedResultSize = []

/-- A rung of the ladder offers the post for the page: it is the first that answers, and it has the
    post at a position of the page. -/
inductive Rung (lib : Crates) (s : AppState) (q : FeedQuery) (p : Post) : Prop where
  | cache {feed : CachedFeed} {i : Nat} {item : CachedFeedItem}
      (hcache : s.cachedFeed = .ok (some feed))
      (hpage : OnPage q i) (hitem : feed.items[i]? = some item) (hid : item.postId = p.id)
  | personalized {result : RecommendFeedResponse} {i : Nat} {item : RecommendationItem}
      (hmiss : s.Uncached) (hok : s.recommendFeed = .ok result)
      (hpage : OnPage q i) (hitem : result.items[i]? = some item) (hid : item.postId = p.id)
  | trending {entries : List (String × Float)} {i : Nat} {score : Float}
      (hmiss : s.Uncached) (hunranked : s.Unranked) (hredis : s.trending = .ok entries)
      (hpage : OnPage q i) (hid : (trendingIds lib entries s.feedResultSize)[i]? = some (p.id, score))
  | recent (hmiss : s.Uncached) (hunranked : s.Unranked) (hnone : s.NoTrending lib)
      (hanswers : s.recentFails = false) (hpublished : p ∈ s.db.publishedPosts)
      (hpage : OnPage q (s.db.rank s.db.publishedPosts p))
      (hsize : s.db.rank s.db.publishedPosts p < s.feedResultSize)

/-- A request is offered the post. -/
inductive Offered (lib : Crates) (s : AppState) (userId : Uuid) (q : FeedQuery) (p : Post) : Prop where
  | following (hmode : q.mode = some "following")
      (hfollowed : p ∈ s.db.followedPosts userId (parseFollowingCursor lib q.cursor))
      (hrank : s.db.rank (s.db.followedPosts userId (parseFollowingCursor lib q.cursor)) p
        < q.pageSize)
  | trending {entries : List (String × Float)} {i : Nat} {score : Float}
      (hmode : q.mode = some "trending") (hredis : s.trending = .ok entries) (hpage : OnPage q i)
      (hid : (trendingIds lib entries
        (addUsize (addUsize (parseCursor q.cursor) q.pageSize) 50))[i]? = some (p.id, score))
  | ranked (hmode : q.Ranked) (hrung : Rung lib s q p)

/-! ### The ladder -/

section Ladder

variable {q : FeedQuery} {p : Post}

/-- The loaded feed has the post at a position of the page. -/
def Loads (lib : Crates) (s : AppState) (q : FeedQuery) (p : Post) : Prop :=
  ∃ i, OnPage q i ∧ ∃ c, (loadOrBuildFeed lib s).1.items[i]? = some c ∧ c.postId = p.id

theorem loads_iff_of_items {α : Type} {items : List α} {toItem : α → CachedFeedItem}
    (hload : (loadOrBuildFeed lib s).1.items = items.map toItem) :
    Loads lib s q p ↔ ∃ i, OnPage q i ∧ ∃ x, items[i]? = some x ∧ (toItem x).postId = p.id := by
  unfold Loads
  rw [hload]
  simp only [List.getElem?_map, Option.map_eq_some_iff, exists_exists_and_eq_and]

/-- A cached feed is served as it is. -/
theorem load_cache {feed : CachedFeed} (hcache : s.cachedFeed = .ok (some feed)) :
    loadOrBuildFeed lib s = (feed, "cache") := by
  unfold loadOrBuildFeed
  rw [hcache]

/-- Without a cached feed, that of the recommendation API is served. -/
theorem load_personalized {result : RecommendFeedResponse} (hmiss : s.Uncached)
    (hok : s.recommendFeed = .ok result) (hitems : result.items ≠ []) :
    (loadOrBuildFeed lib s).1.items = result.items.map RecommendationItem.toCached := by
  have hempty : result.items.isEmpty = false := by simpa using hitems
  unfold loadOrBuildFeed
  split
  · next feed hcache => exact absurd hcache (hmiss feed)
  · simp [hok, hempty, buildCachedFeed]

/-- Without either, the fallback. -/
theorem load_fallback (hmiss : s.Uncached) (hunranked : s.Unranked) :
    loadOrBuildFeed lib s = fallbackFeed lib s := by
  unfold loadOrBuildFeed
  split
  · next feed hcache => exact absurd hcache (hmiss feed)
  · split
    · next result hok => simp [hunranked result hok]
    · rfl

theorem load_trending {entries : List (String × Float)} (hmiss : s.Uncached)
    (hunranked : s.Unranked) (hredis : s.trending = .ok entries)
    (hsome : trendingIds lib entries s.feedResultSize ≠ []) :
    (loadOrBuildFeed lib s).1.items = (trendingIds lib entries s.feedResultSize).map
      (RecommendationItem.toCached ∘ trendingItem) := by
  have hempty : (trendingIds lib entries s.feedResultSize).isEmpty = false := by simpa using hsome
  rw [load_fallback hmiss hunranked]
  simp [fallbackFeed, hredis, hempty, buildCachedFeed]

theorem load_recent (hmiss : s.Uncached) (hunranked : s.Unranked) (hnone : s.NoTrending lib) :
    (loadOrBuildFeed lib s).1.items
      = (recentRows s).map (RecommendationItem.toCached ∘ recentItem) := by
  rw [load_fallback hmiss hunranked]
  unfold fallbackFeed
  cases hredis : s.trending with
  | ok entries => simp [hnone entries hredis, buildCachedFeed]
  | error e => simp [buildCachedFeed]

/-- The recent rows have the published posts at their ranks. -/
theorem recentRows_iff (hp : p ∈ s.db.publishedPosts) :
    (∃ i, OnPage q i ∧ ∃ row, (recentRows s)[i]? = some row ∧ row.id = p.id)
      ↔ s.recentFails = false ∧ OnPage q (s.db.rank s.db.publishedPosts p)
        ∧ s.db.rank s.db.publishedPosts p < s.feedResultSize := by
  unfold recentRows
  cases hfails : s.recentFails with
  | true => simp
  | false =>
    have hslice : (∃ i, OnPage q i ∧ ∃ row, (s.db.recentPublished s.feedResultSize)[i]? = some row
          ∧ row.id = p.id)
        ↔ ∃ row ∈ ((s.db.recentPublished s.feedResultSize).take
            (addUsize (parseCursor q.cursor) q.pageSize)).drop (parseCursor q.cursor), row.id = p.id := by
      simp only [Lib.mem_slice_iff]
      constructor
      · rintro ⟨i, ⟨hfrom, hto⟩, row, hrow, hid⟩
        exact ⟨row, ⟨i, hfrom, hto, hrow⟩, hid⟩
      · rintro ⟨row, ⟨i, hfrom, hto, hrow⟩, hid⟩
        exact ⟨i, ⟨hfrom, hto⟩, row, hrow, hid⟩
    simp only [Bool.false_eq_true, if_false, true_and]
    rw [hslice]
    simp only [Database.mem_slice_recentPublished_iff]
    constructor
    · rintro ⟨row, ⟨p', hp', hfrom, hto, hsize, rfl⟩, hid⟩
      have heq : p' = p := List.inj_on_of_nodup_map s.db.postsKey (List.mem_of_mem_filter hp')
        (List.mem_of_mem_filter hp) hid
      subst heq
      exact ⟨⟨hfrom, hto⟩, hsize⟩
    · rintro ⟨⟨hfrom, hto⟩, hsize⟩
      exact ⟨s.db.rowOf p, ⟨p, hp, hfrom, hto, hsize, rfl⟩, rfl⟩

/-- **The ladder.**  The loaded feed offers the published posts that the first rung that answers
    offers. -/
theorem loads_iff (hp : p ∈ s.db.publishedPosts) : Loads lib s q p ↔ Rung lib s q p := by
  by_cases hcache : ∃ feed, s.cachedFeed = .ok (some feed)
  · obtain ⟨feed, hcache⟩ := hcache
    unfold Loads
    rw [load_cache hcache]
    constructor
    · rintro ⟨i, hpage, c, hitem, hid⟩
      exact .cache hcache hpage hitem hid
    · intro hrung
      cases hrung with
      | cache hcache' hpage hitem hid =>
        obtain rfl : _ = feed := by simpa [hcache] using hcache'.symm
        exact ⟨_, hpage, _, hitem, hid⟩
      | personalized hmiss => exact absurd hcache (hmiss feed)
      | trending hmiss => exact absurd hcache (hmiss feed)
      | recent hmiss => exact absurd hcache (hmiss feed)
  have hmiss : s.Uncached := fun feed h => hcache ⟨feed, h⟩
  by_cases hranked : ∃ result, s.recommendFeed = .ok result ∧ result.items ≠ []
  · obtain ⟨result, hok, hitems⟩ := hranked
    rw [loads_iff_of_items (load_personalized hmiss hok hitems)]
    constructor
    · rintro ⟨i, hpage, item, hitem, hid⟩
      exact .personalized hmiss hok hpage hitem hid
    · intro hrung
      cases hrung with
      | cache hcache' => exact absurd hcache' (hmiss _)
      | personalized _ hok' hpage hitem hid =>
        obtain rfl : _ = result := by simpa [hok] using hok'.symm
        exact ⟨_, hpage, _, hitem, hid⟩
      | trending _ hunranked => exact absurd (hunranked result hok) hitems
      | recent _ hunranked => exact absurd (hunranked result hok) hitems
  have hunranked : s.Unranked := by
    intro result hok
    by_contra hitems
    exact hranked ⟨result, hok, hitems⟩
  by_cases htrending : ∃ entries, s.trending = .ok entries
      ∧ trendingIds lib entries s.feedResultSize ≠ []
  · obtain ⟨entries, hredis, hsome⟩ := htrending
    rw [loads_iff_of_items (load_trending hmiss hunranked hredis hsome)]
    constructor
    · rintro ⟨i, hpage, entry, hentry, hid⟩
      obtain ⟨id, score⟩ := entry
      obtain rfl : id = p.id := hid
      exact .trending hmiss hunranked hredis hpage hentry
    · intro hrung
      cases hrung with
      | cache hcache' => exact absurd hcache' (hmiss _)
      | personalized _ hok _ hitem =>
        rw [hunranked _ hok] at hitem
        simp at hitem
      | trending _ _ hredis' hpage hid =>
        obtain rfl : _ = entries := by simpa [hredis] using hredis'.symm
        exact ⟨_, hpage, _, hid, rfl⟩
      | recent _ _ hnone => exact absurd (hnone entries hredis) hsome
  have hnone : s.NoTrending lib := by
    intro entries hredis
    by_contra hsome
    exact htrending ⟨entries, hredis, hsome⟩
  rw [loads_iff_of_items (load_recent hmiss hunranked hnone)]
  show (∃ i, OnPage q i ∧ ∃ row, (recentRows s)[i]? = some row ∧ row.id = p.id) ↔ _
  rw [recentRows_iff hp]
  constructor
  · rintro ⟨hanswers, hpage, hsize⟩
    exact .recent hmiss hunranked hnone hanswers hp hpage hsize
  · intro hrung
    cases hrung with
    | cache hcache' => exact absurd hcache' (hmiss _)
    | personalized _ hok _ hitem =>
      rw [hunranked _ hok] at hitem
      simp at hitem
    | trending _ _ hredis _ hid =>
      rw [hnone _ hredis] at hid
      simp at hid
    | recent _ _ _ hanswers _ hpage hsize => exact ⟨hanswers, hpage, hsize⟩

end Ladder

/-! ### Pages -/

section Pages

variable {userId : Uuid} {q : FeedQuery} {row : FeedPostRow}

/-- The request is answered with a page that has the post. -/
def Serves (lib : Crates) (s : AppState) (userId : Uuid) (q : FeedQuery) (row : FeedPostRow) : Prop :=
  ∃ page, getFeed lib s (.ok (some userId)) q = .ok page ∧ row ∈ page.items.map FeedItem.post

theorem map_post_finalize (items : List FeedItem) (next : Option String) (source version : String)
    (generatedAt : Int) :
    (finalizeFeedResponse s items next source version generatedAt).items.map FeedItem.post
      = items.map FeedItem.post := by
  apply List.ext_getElem?
  intro i
  simp [finalizeFeedResponse, Function.comp_def]

theorem nextCursor_finalize (items : List FeedItem) (next : Option String) (source version : String)
    (generatedAt : Int) :
    (finalizeFeedResponse s items next source version generatedAt).nextCursor = next := rfl

theorem exists_hydratePosts_iff {ids : List Uuid} :
    (∃ posts, hydratePosts s ids = .ok posts ∧ row ∈ posts)
      ↔ s.pageFails = false ∧ row ∈ s.db.hydratePosts ids := by
  unfold hydratePosts
  cases ids with
  | nil => simp [Database.hydratePosts]
  | cons id ids => cases hfails : s.pageFails <;> simp

/-- The posts of a hydrated slice. -/
theorem mem_hydrated_iff {α : Type} {items : List α} {id : α → Uuid} :
    row ∈ s.db.hydratePosts ((pageSlice items (parseCursor q.cursor) q.pageSize).map id)
      ↔ ∃ p ∈ s.db.publishedPosts, (∃ i, OnPage q i ∧ ∃ x, items[i]? = some x ∧ id x = p.id)
        ∧ row = s.db.rowOf p := by
  rw [Database.mem_hydratePosts_iff]
  simp only [List.mem_map, exists_mem_pageSlice_iff, Database.publishedPosts, List.mem_filter,
    decide_eq_true_eq, and_assoc]

theorem serves_following_iff (hmode : q.mode = some "following") :
    Serves lib s userId q row ↔ s.pageFails = false
      ∧ row ∈ s.db.followingFeed userId (parseFollowingCursor lib q.cursor) q.pageSize := by
  unfold Serves getFeed
  simp only [hmode, Lib.except_bind_eq_ok, Except.ok.injEq, exists_eq_left', if_true]
  unfold followingFeedHandler
  cases hfails : s.pageFails with
  | true => simp
  | false =>
    simp only [Bool.false_eq_true, if_false, Except.ok.injEq, exists_eq_left', map_post_finalize,
      true_and]
    rw [List.map_map]
    show row ∈ List.map (fun post => post) _ ↔ _
    rw [List.map_id']

theorem serves_trending_iff (hmode : q.mode = some "trending") :
    Serves lib s userId q row ↔ s.pageFails = false ∧ ∃ entries, s.trending = .ok entries
      ∧ row ∈ s.db.hydratePosts ((pageSlice (trendingIds lib entries
        (addUsize (addUsize (parseCursor q.cursor) q.pageSize) 50)) (parseCursor q.cursor)
          q.pageSize).map Prod.fst) := by
  unfold Serves getFeed
  have hfollowing : ¬ (some "trending" = some "following") := by decide
  simp only [hmode, hfollowing, Lib.except_bind_eq_ok, Except.ok.injEq, exists_eq_left', if_true,
    if_false]
  unfold trendingFeedHandler
  simp only [Lib.except_bind_eq_ok]
  constructor
  · rintro ⟨page, ⟨entries, hredis, hpage⟩, hrow⟩
    split at hpage
    · rw [Lib.except_pure_eq_ok] at hpage
      rw [hpage, map_post_finalize] at hrow
      nomatch hrow
    · rw [Lib.except_bind_eq_ok] at hpage
      obtain ⟨posts, hposts, hpage⟩ := hpage
      rw [Lib.except_pure_eq_ok] at hpage
      rw [hpage, map_post_finalize, List.map_map] at hrow
      have hmem : row ∈ posts := by simpa [Function.comp_def, trendingFeedItem] using hrow
      obtain ⟨hup, hhydrated⟩ := exists_hydratePosts_iff.mp ⟨posts, hposts, hmem⟩
      exact ⟨hup, entries, hredis, hhydrated⟩
  · rintro ⟨hup, entries, hredis, hhydrated⟩
    obtain ⟨posts, hposts, hmem⟩ := exists_hydratePosts_iff.mpr ⟨hup, hhydrated⟩
    -- nothing is hydrated when the set is empty
    have hsome : (trendingIds lib entries
        (addUsize (addUsize (parseCursor q.cursor) q.pageSize) 50)).isEmpty = false := by
      by_contra hempty
      rw [Bool.not_eq_false, List.isEmpty_iff] at hempty
      rw [hempty] at hhydrated
      simp [pageSlice, Database.hydratePosts] at hhydrated
    simp only [hredis, Except.ok.injEq, exists_eq_left', hsome, Bool.false_eq_true, if_false,
      Lib.except_bind_eq_ok, hposts, Lib.except_pure_eq_ok, exists_eq_left, map_post_finalize]
    rw [List.map_map]
    simpa [Function.comp_def, trendingFeedItem] using hmem

/-- Every hydrated post has an item of the slice. -/
theorem map_post_feedItem {slice : List CachedFeedItem} {posts : List FeedPostRow}
    (hslice : ∀ post ∈ posts, ∃ c ∈ slice, c.postId = post.id) :
    (posts.filterMap (feedItem slice)).map FeedItem.post = posts := by
  induction posts with
  | nil => rfl
  | cons post posts ih =>
    obtain ⟨c, hc, hid⟩ := hslice post (by simp)
    have hsome : (slice.find? fun c => c.postId = post.id).isSome := by
      rw [List.find?_isSome]
      exact ⟨c, hc, by simpa using hid⟩
    obtain ⟨cached, hcached⟩ := Option.isSome_iff_exists.mp hsome
    have hitem : feedItem slice post = some {
        rank := ⟨cached.score, cached.source, cached.reason⟩
        post := post
        impressionId := none
        position := 0
        featureSnapshot := cached.features } := by
      simp [feedItem, hcached]
    rw [List.filterMap_cons_some hitem, List.map_cons,
      ih fun post h => hslice post (List.mem_cons_of_mem _ h)]

theorem serves_ranked_iff (hmode : q.Ranked) :
    Serves lib s userId q row ↔ s.pageFails = false
      ∧ row ∈ s.db.hydratePosts ((pageSlice (loadOrBuildFeed lib s).1.items (parseCursor q.cursor)
        q.pageSize).map CachedFeedItem.postId) := by
  unfold Serves getFeed
  simp only [hmode.1, hmode.2, Lib.except_bind_eq_ok, Except.ok.injEq, exists_eq_left', if_false,
    Lib.except_pure_eq_ok]
  rw [← exists_hydratePosts_iff]
  have hposts : ∀ posts, hydratePosts s ((pageSlice (loadOrBuildFeed lib s).1.items
      (parseCursor q.cursor) q.pageSize).map CachedFeedItem.postId) = .ok posts →
      (posts.filterMap (feedItem (pageSlice (loadOrBuildFeed lib s).1.items (parseCursor q.cursor)
        q.pageSize))).map FeedItem.post = posts := by
    intro posts hok
    apply map_post_feedItem
    intro post hmem
    have hhydrated := (exists_hydratePosts_iff.mp ⟨posts, hok, hmem⟩).2
    obtain ⟨p, -, -, hid, rfl⟩ := Database.mem_hydratePosts_iff.mp hhydrated
    exact List.mem_map.mp hid
  constructor
  · rintro ⟨page, ⟨posts, hok, rfl⟩, hrow⟩
    rw [map_post_finalize, hposts posts hok] at hrow
    exact ⟨posts, hok, hrow⟩
  · rintro ⟨posts, hok, hrow⟩
    refine ⟨_, ⟨posts, hok, rfl⟩, ?_⟩
    rw [map_post_finalize, hposts posts hok]
    exact hrow

/-- **The page.**  It has the published posts that the request is offered, and no others. -/
theorem mem_page_iff :
    Serves lib s userId q row ↔ s.pageFails = false
      ∧ ∃ p ∈ s.db.publishedPosts, Offered lib s userId q p ∧ row = s.db.rowOf p := by
  by_cases hfollowing : q.mode = some "following"
  · rw [serves_following_iff hfollowing, Database.mem_followingFeed_iff]
    apply and_congr_right
    intro _
    constructor
    · rintro ⟨p, hp, hrank, hrow⟩
      refine ⟨p, ?_, .following hfollowing hp hrank, hrow⟩
      obtain ⟨hmem, hwhere⟩ := List.mem_filter.mp hp
      have hpublished : p.status = .published := (of_decide_eq_true hwhere).1.1
      exact List.mem_filter.mpr ⟨hmem, decide_eq_true hpublished⟩
    · rintro ⟨p, hp, hoffered, hrow⟩
      cases hoffered with
      | following _ hfollowed hrank => exact ⟨p, hfollowed, hrank, hrow⟩
      | trending hmode => simp [hfollowing] at hmode
      | ranked hmode => exact absurd hfollowing hmode.1
  by_cases htrending : q.mode = some "trending"
  · rw [serves_trending_iff htrending]
    apply and_congr_right
    intro _
    simp only [mem_hydrated_iff]
    constructor
    · rintro ⟨entries, hredis, p, hp, ⟨i, hpage, ⟨id, score⟩, hentry, hid⟩, hrow⟩
      obtain rfl : id = p.id := hid
      exact ⟨p, hp, .trending htrending hredis hpage hentry, hrow⟩
    · rintro ⟨p, hp, hoffered, hrow⟩
      cases hoffered with
      | following hmode => exact absurd hmode hfollowing
      | trending _ hredis hpage hid => exact ⟨_, hredis, p, hp, ⟨_, hpage, _, hid, rfl⟩, hrow⟩
      | ranked hmode => exact absurd htrending hmode.2
  have hranked : q.Ranked := ⟨hfollowing, htrending⟩
  rw [serves_ranked_iff hranked]
  apply and_congr_right
  intro _
  rw [mem_hydrated_iff]
  constructor
  · rintro ⟨p, hp, hloads, hrow⟩
    exact ⟨p, hp, .ranked hranked ((loads_iff hp).mp hloads), hrow⟩
  · rintro ⟨p, hp, hoffered, hrow⟩
    cases hoffered with
    | following hmode => exact absurd hmode hfollowing
    | trending hmode => exact absurd hmode htrending
    | ranked _ hrung => exact ⟨p, hp, (loads_iff hp).mpr hrung, hrow⟩

/-- Every page is made of published posts. -/
theorem published_of_mem_page (hserves : Serves lib s userId q row) : s.db.Published row.id := by
  obtain ⟨-, p, hp, -, rfl⟩ := mem_page_iff.mp hserves
  obtain ⟨hmem, hpublished⟩ := List.mem_filter.mp hp
  exact ⟨p, hmem, rfl, of_decide_eq_true hpublished⟩

/-- **The rules of a page.**  The pages that answer a request have only posts that the viewer may be
    served exactly when none of the published posts that the request is offered is hidden or
    reported by the viewer or of an author who is not active. -/
theorem pageEligible_iff :
    (∀ page, getFeed lib s (.ok (some userId)) q = .ok page →
        ∀ item ∈ page.items, s.db.Eligible userId item.post)
      ↔ (s.pageFails = false → ∀ p ∈ s.db.publishedPosts, Offered lib s userId q p →
        s.db.Clean userId p.id p.authorId) := by
  constructor
  · intro hpages hup p hp hoffered
    obtain ⟨page, hpage, hrow⟩ : Serves lib s userId q (s.db.rowOf p) :=
      mem_page_iff.mpr ⟨hup, p, hp, hoffered, rfl⟩
    obtain ⟨item, hitem, hpost⟩ := List.mem_map.mp hrow
    have heligible := hpages page hpage item hitem
    rw [hpost] at heligible
    exact heligible.2
  · intro hsources page hpage item hitem
    have hserves : Serves lib s userId q item.post :=
      ⟨page, hpage, List.mem_map_of_mem hitem⟩
    obtain ⟨hup, p, hp, hoffered, hrow⟩ := mem_page_iff.mp hserves
    refine ⟨published_of_mem_page hserves, ?_⟩
    rw [hrow]
    exact hsources hup p hp hoffered

/-- User 1 has hidden post 10 of user 2. -/
private def hiddenPosts : Database where
  users := [⟨1, "an", none, none, true⟩, ⟨2, "binh", none, none, true⟩]
  posts := [⟨10, 2, "xin chào", ["tech"], 1.0, .published, 1000⟩]
  follows := []
  interactions := [⟨1, 10, .hide⟩]
  reports := []
  usersKey := by decide
  postsKey := by decide
  followsKey := by decide
  authorsExist := by
    intro p hp
    obtain rfl := List.mem_singleton.mp hp
    exact ⟨⟨2, "binh", none, none, true⟩, by decide, rfl⟩

/-- Nothing is cached or trending, and the recommendation API is down. -/
private def onlyRecent : AppState where
  db := hiddenPosts
  feedResultSize := 200
  impressionLoggingEnabled := false
  cachedFeed := .ok none
  recommendFeed := .error .other
  trending := .ok []
  recentFails := false
  pageFails := false
  impressionsStored := false
  requestId := 7
  impressionId := id
  now := 2000

/-- The last rung serves a post that the viewer has hidden. -/
theorem recent_serves_hidden :
    ¬ ∀ page, getFeed ⟨fun _ => none, fun _ => none, fun _ => "", fun _ => ""⟩ onlyRecent
        (.ok (some 1)) ⟨none, none, none⟩ = .ok page →
      ∀ item ∈ page.items, onlyRecent.db.Eligible 1 item.post := by
  intro hpages
  have heligible := hpages _ rfl
  have hhidden : onlyRecent.db.Hidden 1 10 := by decide
  have hitem := heligible _ (List.mem_cons_self ..)
  exact hitem.2.1 hhidden

end Pages

end Oecophylla.Feed
