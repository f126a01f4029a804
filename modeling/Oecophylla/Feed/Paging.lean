import Oecophylla.Feed.Eligibility
import Oecophylla.Lib.Slices

namespace Oecophylla.Feed

open Lib (Enumerates Slices)

/-!
# Pages of the ranked feed and of the trending feed

A client asks with the offset that the service returned as `next_cursor`, or with any other text.

* `pageSlice_eq`, `nextOffset_eq` — where the sum of offset and limit fits into `usize`, a page is
  the slice of its offset and its limit;
* `enumerates_feedAnswers` — the pages of a cached feed, from the first one on, are its posts;
* `enumerates_trendingAnswers_iff` — those of the trending set are its posts exactly when no pool
  ends too early;
* `paging_iff` — when a request is answered by exact arithmetic, and makes progress.
-/

/-! ### Sums and casts -/

/-- A sum is exact when it fits. -/
theorem addUsize_eq_iff {a b : Nat} : addUsize a b = a + b ↔ a + b < 2 ^ 64 := by
  unfold addUsize
  omega

theorem addUsize_of_lt {a b : Nat} (h : a + b < 2 ^ 64) : addUsize a b = a + b :=
  addUsize_eq_iff.mpr h

/-- A cast is exact when the number is not too large for the sign. -/
theorem asIsize_eq_iff {a : Nat} : asIsize a = a ↔ a < 2 ^ 63 := by
  unfold asIsize
  split <;> omega

/-- The text of a number is read back. -/
theorem parseUsize_toString {n : Nat} (hn : n < 2 ^ 64) : parseUsize (toString n) = some n := by
  have htext : (toString n).toList = Nat.toDigits 10 n := by
    rw [Nat.toString_eq_repr, Nat.toList_repr]
  have hdigit : ∀ c ∈ Nat.toDigits 10 n, c.isDigit = true := fun c hc =>
    Nat.isDigit_of_mem_toDigits (by decide) (by decide) hc
  -- no digit is a sign
  have hsign : (Nat.toDigits 10 n).head? ≠ some '+' := by
    intro hhead
    have hplus := hdigit '+' (List.mem_of_mem_head? hhead)
    simp at hplus
  have hvalue : (Nat.toDigits 10 n).foldl (fun n c => n * 10 + (c.toNat - '0'.toNat)) 0 = n := by
    conv_rhs => rw [← Nat.ofDigitChars_ten_toDigits (n := n), Nat.ofDigitChars_eq_foldl]
    simp only [Nat.mul_comm]
  unfold parseUsize
  rw [htext, if_neg hsign]
  simp only [hvalue]
  exact if_pos ⟨Nat.toDigits_ne_nil, List.all_eq_true.mpr hdigit, hn⟩

theorem parseCursor_toString {n : Nat} (hn : n < 2 ^ 64) : parseCursor (some (toString n)) = n := by
  show (parseUsize (toString n)).getD 0 = n
  rw [parseUsize_toString hn, Option.getD_some]

theorem FeedQuery.pageSize_pos (q : FeedQuery) : 0 < q.pageSize := by
  unfold FeedQuery.pageSize
  omega

theorem FeedQuery.pageSize_le (q : FeedQuery) : q.pageSize ≤ 50 := by
  unfold FeedQuery.pageSize
  omega

/-! ### Pages of exact sums -/

section Page

variable {α : Type} {items : List α} {offset limit total : Nat}

/-- The slice of an offset and a limit. -/
theorem pageSlice_eq (h : offset + limit < 2 ^ 64) :
    pageSlice items offset limit = (items.drop offset).take limit := by
  unfold pageSlice
  rw [addUsize_of_lt h]
  by_cases hend : items.length ≤ offset
  · rw [if_pos hend, List.drop_of_length_le hend, List.take_nil]
  · rw [if_neg hend, ← List.take_eq_take_min, List.drop_take, Nat.add_sub_cancel_left]

/-- The offset behind the page, when something is left there. -/
theorem nextOffset_eq (h : offset + limit < 2 ^ 64) :
    nextOffset total offset limit
      = if offset + limit < total then some (toString (offset + limit)) else none := by
  unfold nextOffset
  rw [addUsize_of_lt h]
  by_cases hmore : offset + limit < total
  · rw [if_pos hmore, Nat.min_eq_left hmore.le, if_pos hmore]
  · rw [if_neg hmore, Nat.min_eq_right (by omega), if_neg (lt_irrefl _)]

/-- A next offset is larger. -/
theorem lt_of_nextOffset (h : offset + limit < 2 ^ 64) (hlimit : 0 < limit) {c : String}
    (hc : nextOffset total offset limit = some c) : offset < parseCursor (some c) := by
  rw [nextOffset_eq h] at hc
  split at hc
  · obtain rfl := Option.some.inj hc
    rw [parseCursor_toString h]
    omega
  · cases hc

end Page

/-! ### Posts of ids -/

namespace Database

variable (db : Database)

@[simp] theorem hydratePosts_nil : db.hydratePosts [] = [] := rfl

theorem hydratePosts_append (xs ys : List Uuid) :
    db.hydratePosts (xs ++ ys) = db.hydratePosts xs ++ db.hydratePosts ys :=
  List.flatMap_append

/-- A part of ids without a post has none. -/
theorem hydratePosts_drop_eq_nil {ids : List Uuid} (h : db.hydratePosts ids = []) (n : Nat) :
    db.hydratePosts (ids.drop n) = [] := by
  rw [← List.take_append_drop n ids, hydratePosts_append, List.append_eq_nil_iff] at h
  exact h.2

end Database

variable {lib : Crates} {db : Database} {viewer : Uuid} {limit : Option Nat} {mode : Option String}

/-! ### Answers to the cursors of a client -/

/-- `limit.unwrap_or(DEFAULT_PAGE_SIZE).clamp(1, MAX_PAGE_SIZE)`, for any cursor and any mode. -/
def sizeOf (limit : Option Nat) : Nat := FeedQuery.pageSize ⟨none, limit, none⟩

theorem sizeOf_bounds (limit : Option Nat) : 0 < sizeOf limit ∧ sizeOf limit ≤ 50 :=
  ⟨FeedQuery.pageSize_pos _, FeedQuery.pageSize_le _⟩

/-- What the ranked feed may answer a cursor while the cached feed and the tables stay as they are:
    the posts of the page and the next cursor. -/
def FeedAnswers (lib : Crates) (feed : CachedFeed) (db : Database) (viewer : Uuid)
    (limit : Option Nat) (mode : Option String) (cursor : Option String) (posts : List FeedPostRow)
    (next : Option String) : Prop :=
  ∃ s : AppState, s.db = db ∧ s.cachedFeed = .ok (some feed) ∧ ∃ response,
    getFeed lib s (.ok (some viewer)) ⟨cursor, limit, mode⟩ = .ok response
      ∧ response.items.map FeedItem.post = posts ∧ response.nextCursor = next

/-- What the trending feed may answer a cursor while the set and the tables stay as they are. -/
def TrendingAnswers (lib : Crates) (entries : List (String × Float)) (db : Database) (viewer : Uuid)
    (limit : Option Nat) (cursor : Option String) (posts : List FeedPostRow) (next : Option String) :
    Prop :=
  ∃ s : AppState, s.db = db ∧ s.trending = .ok entries ∧ ∃ response,
    getFeed lib s (.ok (some viewer)) ⟨cursor, limit, some "trending"⟩ = .ok response
      ∧ response.items.map FeedItem.post = posts ∧ response.nextCursor = next

/-- The posts that a hydration returns. -/
theorem hydratePosts_eq_ok {s : AppState} {ids : List Uuid} {posts : List FeedPostRow}
    (h : hydratePosts s ids = .ok posts) : posts = s.db.hydratePosts ids := by
  unfold hydratePosts at h
  split at h
  · next hempty =>
    rw [List.isEmpty_iff] at hempty
    rw [hempty]
    exact (Except.ok.inj h).symm
  · split at h
    · cases h
    · exact (Except.ok.inj h).symm

/-- The ranked feed answers with the posts of a slice of the loaded feed. -/
theorem getFeed_ranked {s : AppState} {q : FeedQuery} {response : FeedResponse} (hmode : q.Ranked)
    (h : getFeed lib s (.ok (some viewer)) q = .ok response) :
    response.items.map FeedItem.post
        = s.db.hydratePosts ((pageSlice (loadOrBuildFeed lib s).1.items (parseCursor q.cursor)
          q.pageSize).map CachedFeedItem.postId)
      ∧ response.nextCursor = nextOffset (loadOrBuildFeed lib s).1.items.length (parseCursor q.cursor)
          q.pageSize := by
  unfold getFeed at h
  simp only [hmode.1, hmode.2, Lib.except_bind_eq_ok, Except.ok.injEq, exists_eq_left', if_false,
    Lib.except_pure_eq_ok] at h
  obtain ⟨posts, hposts, rfl⟩ := h
  rw [map_post_finalize, nextCursor_finalize, hydratePosts_eq_ok hposts]
  refine ⟨?_, rfl⟩
  apply map_post_feedItem
  intro post hmem
  obtain ⟨p, -, -, hid, rfl⟩ := Database.mem_hydratePosts_iff.mp hmem
  exact List.mem_map.mp hid

theorem getFeed_of_trending {s : AppState} {q : FeedQuery} (hmode : q.mode = some "trending") :
    getFeed lib s (.ok (some viewer)) q = trendingFeedHandler lib s q.cursor q.pageSize := by
  have hfollowing : ¬ (some "trending" = some "following") := by decide
  unfold getFeed
  simp only [hmode, hfollowing, if_true, if_false]
  rfl

/-- The trending feed answers with the posts of a slice of the ids that it read. -/
theorem getFeed_trending {s : AppState} {q : FeedQuery} {response : FeedResponse}
    (hmode : q.mode = some "trending") (h : getFeed lib s (.ok (some viewer)) q = .ok response) :
    ∃ entries, s.trending = .ok entries
      ∧ let scored := trendingIds lib entries (addUsize (addUsize (parseCursor q.cursor) q.pageSize) 50)
        response.items.map FeedItem.post
            = s.db.hydratePosts ((pageSlice scored (parseCursor q.cursor) q.pageSize).map Prod.fst)
          ∧ response.nextCursor = nextOffset scored.length (parseCursor q.cursor) q.pageSize := by
  rw [getFeed_of_trending hmode] at h
  unfold trendingFeedHandler at h
  simp only [Lib.except_bind_eq_ok] at h
  obtain ⟨entries, hredis, hpage⟩ := h
  refine ⟨entries, hredis, ?_⟩
  intro scored
  split at hpage
  · next hempty =>
    -- nothing in the set: no page and no next cursor
    rw [Lib.except_pure_eq_ok] at hpage
    rw [List.isEmpty_iff] at hempty
    have hnone : scored = [] := hempty
    rw [hpage, hnone, map_post_finalize]
    refine ⟨rfl, ?_⟩
    show none = nextOffset 0 _ _
    unfold nextOffset
    rw [if_neg (by omega)]
  · rw [Lib.except_bind_eq_ok] at hpage
    obtain ⟨posts, hposts, hpage⟩ := hpage
    rw [Lib.except_pure_eq_ok] at hpage
    rw [hydratePosts_eq_ok hposts] at hpage
    rw [hpage, map_post_finalize, nextCursor_finalize, List.map_map]
    refine ⟨?_, rfl⟩
    show List.map (fun post => post) _ = _
    rw [List.map_id']

/-- A request that meets a cached feed and a trending set, and whose queries succeed. -/
private def metBy (db : Database) (feed : CachedFeed) (entries : List (String × Float)) :
    AppState where
  db := db
  feedResultSize := 0
  impressionLoggingEnabled := false
  cachedFeed := .ok (some feed)
  recommendFeed := .error .other
  trending := .ok entries
  recentFails := false
  pageFails := false
  impressionsStored := false
  requestId := 0
  impressionId := fun _ => 0
  now := 0

private theorem hydratePosts_metBy (feed : CachedFeed) (entries : List (String × Float))
    (ids : List Uuid) : hydratePosts (metBy db feed entries) ids = .ok (db.hydratePosts ids) := by
  unfold hydratePosts
  cases ids with
  | nil => rfl
  | cons id ids => rfl

/-- What the ranked feed answers. -/
theorem feedAnswers_iff {feed : CachedFeed} (hmode : FeedQuery.Ranked ⟨none, limit, mode⟩)
    {c : Option String} {posts : List FeedPostRow} {next : Option String} :
    FeedAnswers lib feed db viewer limit mode c posts next
      ↔ posts = db.hydratePosts ((pageSlice feed.items (parseCursor c) (sizeOf limit)).map
          CachedFeedItem.postId)
        ∧ next = nextOffset feed.items.length (parseCursor c) (sizeOf limit) := by
  have hranked : FeedQuery.Ranked ⟨c, limit, mode⟩ := hmode
  refine ⟨?_, ?_⟩
  · rintro ⟨s, rfl, hcached, response, hget, rfl, rfl⟩
    have h := getFeed_ranked hranked hget
    rw [load_cache hcached] at h
    exact h
  · rintro ⟨rfl, rfl⟩
    have hget : ∃ response, getFeed lib (metBy db feed []) (.ok (some viewer)) ⟨c, limit, mode⟩
        = .ok response := by
      unfold getFeed
      simp only [hranked.1, hranked.2, Lib.except_bind_eq_ok, Except.ok.injEq, exists_eq_left',
        if_false, Lib.except_pure_eq_ok, hydratePosts_metBy]
      exact ⟨_, rfl⟩
    obtain ⟨response, hget⟩ := hget
    have h := getFeed_ranked hranked hget
    rw [load_cache (rfl : (metBy db feed []).cachedFeed = .ok (some feed))] at h
    exact ⟨metBy db feed [], rfl, rfl, response, hget, h.1, h.2⟩

/-- What the trending feed answers. -/
theorem trendingAnswers_iff {entries : List (String × Float)} {c : Option String}
    {posts : List FeedPostRow} {next : Option String} :
    TrendingAnswers lib entries db viewer limit c posts next
      ↔ let scored := trendingIds lib entries (addUsize (addUsize (parseCursor c) (sizeOf limit)) 50)
        posts = db.hydratePosts ((pageSlice scored (parseCursor c) (sizeOf limit)).map Prod.fst)
          ∧ next = nextOffset scored.length (parseCursor c) (sizeOf limit) := by
  refine ⟨?_, ?_⟩
  · rintro ⟨s, rfl, hredis, response, hget, rfl, rfl⟩
    obtain ⟨entries', hredis', h⟩ := getFeed_trending rfl hget
    obtain rfl : entries = entries' := by simpa [hredis] using hredis'
    exact h
  · rintro ⟨hposts, hnext⟩
    let s := metBy db ⟨0, "", "", []⟩ entries
    have hget : ∃ response, getFeed lib s (.ok (some viewer)) ⟨c, limit, some "trending"⟩
        = .ok response := by
      rw [getFeed_of_trending rfl]
      unfold trendingFeedHandler
      have hredis : s.trending = .ok entries := rfl
      simp only [hredis, Lib.except_bind_eq_ok, Except.ok.injEq, exists_eq_left']
      split
      · exact ⟨_, rfl⟩
      · simp only [s, hydratePosts_metBy]
        exact ⟨_, rfl⟩
    obtain ⟨response, hget⟩ := hget
    obtain ⟨entries', hredis', h⟩ := getFeed_trending rfl hget
    obtain rfl : entries = entries' := by simpa [s, metBy] using hredis'
    exact ⟨s, rfl, rfl, response, hget, h.1.trans hposts.symm, h.2.trans hnext.symm⟩

/-! ### The pages of a cached feed -/

/-- **The pages of a cached feed**, from the first one on, are its posts. -/
theorem enumerates_feedAnswers {feed : CachedFeed} (hmode : FeedQuery.Ranked ⟨none, limit, mode⟩)
    (hfeed : feed.items.length < 2 ^ 63) :
    Enumerates (FeedAnswers lib feed db viewer limit mode)
      (db.hydratePosts (feed.items.map CachedFeedItem.postId)) := by
  obtain ⟨hpos, hle⟩ := sizeOf_bounds limit
  -- a cursor leaves the items from its offset on, which is inside the list
  have hslices : Slices (FeedAnswers lib feed db viewer limit mode)
      (fun c offset => parseCursor c = offset ∧ offset ≤ feed.items.length)
      (fun offset => db.hydratePosts ((feed.items.drop offset).map CachedFeedItem.postId))
      (fun offset => feed.items.length - offset) :=
    { answered := fun _ => ⟨_, _, (feedAnswers_iff hmode).mpr ⟨rfl, rfl⟩⟩
      last := by
        rintro c offset posts ⟨rfl, hoffset⟩ hanswer
        obtain ⟨rfl, hnext⟩ := (feedAnswers_iff hmode).mp hanswer
        rw [nextOffset_eq (by omega)] at hnext
        split at hnext
        · cases hnext
        · next hend =>
          rw [pageSlice_eq (by omega), List.take_of_length_le]
          rw [List.length_drop]
          omega
      next := by
        rintro c offset posts c' ⟨rfl, hoffset⟩ hanswer
        obtain ⟨rfl, hnext⟩ := (feedAnswers_iff hmode).mp hanswer
        rw [nextOffset_eq (by omega)] at hnext
        split at hnext
        · next hmore =>
          obtain rfl := Option.some.inj hnext
          refine ⟨_, ⟨parseCursor_toString (by omega), hmore.le⟩, by omega, ?_⟩
          rw [pageSlice_eq (by omega), ← Database.hydratePosts_append, ← List.map_append,
            ← List.drop_drop, List.take_append_drop]
        · cases hnext }
  have h := hslices.enumerates (s := 0) ⟨rfl, Nat.zero_le _⟩
  rwa [List.drop_zero] at h

/-! ### The pages of the trending set -/

/-- The ids of posts in the set, in its order. -/
def memberIds (lib : Crates) (entries : List (String × Float)) : List Uuid :=
  entries.filterMap fun entry => lib.parseUuid entry.1

theorem memberIds_take_append_drop (lib : Crates) (entries : List (String × Float)) (n : Nat) :
    memberIds lib (entries.take n) ++ memberIds lib (entries.drop n) = memberIds lib entries := by
  unfold memberIds
  rw [← List.filterMap_append, List.take_append_drop]

/-- The ids of a pool are those of the first entries. -/
theorem map_trendingIds {entries : List (String × Float)} {n : Nat} (hpos : 0 < n)
    (hn : n < 2 ^ 63) :
    (trendingIds lib entries n).map Prod.fst = memberIds lib (entries.take n) := by
  have hstop : max (asIsize n - 1) (-2 ^ 63) = (n : Int) - 1 := by
    rw [asIsize_eq_iff.mpr hn]
    omega
  have hrange : zrevrange entries ((n : Int) - 1) = entries.take n := by
    unfold zrevrange
    rw [if_pos (by omega)]
    congr 1
    omega
  unfold trendingIds memberIds
  rw [hstop, hrange, List.map_filterMap]
  congr 1
  funext entry
  cases lib.parseUuid entry.1 with
  | none => rfl
  | some id => rfl

/-- The entries that the service reads for a page: those up to its end, and fifty more. -/
def poolSize (limit : Option Nat) (page : Nat) : Nat := (page + 1) * sizeOf limit + 50

/-- No pool runs out of ids while there are posts behind it: a pool with no more ids than its page
    ends with is followed by no published post. -/
def PoolReaches (lib : Crates) (db : Database) (entries : List (String × Float))
    (limit : Option Nat) : Prop :=
  ∀ page, (memberIds lib (entries.take (poolSize limit page))).length ≤ (page + 1) * sizeOf limit →
    db.hydratePosts (memberIds lib (entries.drop (poolSize limit page))) = []

/-- When every member of the set is an id, the pools reach. -/
theorem poolReaches_of_ids {entries : List (String × Float)}
    (hids : ∀ entry ∈ entries, (lib.parseUuid entry.1).isSome) :
    PoolReaches lib db entries limit := by
  intro page hshort
  have hlength : (memberIds lib (entries.take (poolSize limit page))).length
      = (entries.take (poolSize limit page)).length :=
    List.filterMap_length_eq_length.mpr fun entry hentry => hids entry (List.mem_of_mem_take hentry)
  rw [hlength, List.length_take] at hshort
  have hpool : poolSize limit page = (page + 1) * sizeOf limit + 50 := rfl
  rw [List.drop_of_length_le (by omega)]
  rfl

/-- What the trending feed answers at the start of a page. -/
theorem trendingAnswers_page {entries : List (String × Float)} {page : Nat} {c : Option String}
    (hc : parseCursor c = page * sizeOf limit) (hfits : poolSize limit page < 2 ^ 63)
    {posts : List FeedPostRow} {next : Option String} :
    TrendingAnswers lib entries db viewer limit c posts next
      ↔ let pool := memberIds lib (entries.take (poolSize limit page))
        posts = db.hydratePosts ((pool.drop (page * sizeOf limit)).take (sizeOf limit))
          ∧ next = if (page + 1) * sizeOf limit < pool.length
              then some (toString ((page + 1) * sizeOf limit)) else none := by
  have hpool : poolSize limit page = page * sizeOf limit + sizeOf limit + 50 := by
    unfold poolSize
    rw [Nat.succ_mul]
  have hsum : addUsize (addUsize (page * sizeOf limit) (sizeOf limit)) 50 = poolSize limit page := by
    have hinner : addUsize (page * sizeOf limit) (sizeOf limit)
        = page * sizeOf limit + sizeOf limit := addUsize_of_lt (by omega)
    rw [hinner, addUsize_of_lt (by omega), hpool]
  have hids : (trendingIds lib entries (poolSize limit page)).map Prod.fst
      = memberIds lib (entries.take (poolSize limit page)) := map_trendingIds (by omega) hfits
  have hlength : (trendingIds lib entries (poolSize limit page)).length
      = (memberIds lib (entries.take (poolSize limit page))).length := by
    rw [← hids, List.length_map]
  rw [trendingAnswers_iff, hc, hsum]
  simp only
  rw [pageSlice_eq (by omega), nextOffset_eq (by omega), List.map_take, List.map_drop, hids, hlength,
    Nat.succ_mul]

/-- A page's posts and those behind it, for ids of which a pool holds the first ones. -/
private theorem hydratePosts_split {pool behind : List Uuid} {offset size : Nat}
    (h : offset + size ≤ pool.length) :
    db.hydratePosts ((pool ++ behind).drop offset)
      = db.hydratePosts ((pool.drop offset).take size)
        ++ db.hydratePosts ((pool ++ behind).drop (offset + size)) := by
  have hlength : size ≤ (pool.drop offset).length := by
    rw [List.length_drop]
    omega
  rw [← Database.hydratePosts_append, ← List.drop_drop, List.drop_append_of_le_length (by omega),
    ← List.take_append_of_le_length hlength, List.take_append_drop]

/-- The pages of the trending set are its posts when the pools reach. -/
theorem enumerates_trendingAnswers {entries : List (String × Float)}
    (hentries : entries.length < 2 ^ 58) (hreach : PoolReaches lib db entries limit) :
    Enumerates (TrendingAnswers lib entries db viewer limit)
      (db.hydratePosts (memberIds lib entries)) := by
  obtain ⟨hpos, hle⟩ := sizeOf_bounds limit
  have hids : (memberIds lib entries).length ≤ entries.length := List.length_filterMap_le _ _
  have hsucc (page : Nat) : (page + 1) * sizeOf limit = page * sizeOf limit + sizeOf limit :=
    Nat.succ_mul _ _
  have hfits {page : Nat} (h : page * sizeOf limit ≤ (memberIds lib entries).length) :
      poolSize limit page < 2 ^ 63 := by
    have hs := hsucc page
    unfold poolSize
    omega
  -- a cursor leaves the ids from the start of a page on
  have hslices : Slices (TrendingAnswers lib entries db viewer limit)
      (fun c page => parseCursor c = page * sizeOf limit
        ∧ page * sizeOf limit ≤ (memberIds lib entries).length)
      (fun page => db.hydratePosts ((memberIds lib entries).drop (page * sizeOf limit)))
      (fun page => (memberIds lib entries).length - page * sizeOf limit) := by
    refine ⟨fun {c page} h => ?_, fun {c page posts} h hanswer => ?_,
      fun {c page posts c'} h hanswer => ?_⟩
    · exact ⟨_, _, (trendingAnswers_page h.1 (hfits h.2)).mpr ⟨rfl, rfl⟩⟩
    · obtain ⟨rfl, hnext⟩ := (trendingAnswers_page h.1 (hfits h.2)).mp hanswer
      split at hnext
      · cases hnext
      · next hend =>
        -- nothing behind the pool has a post
        have hbehind := hreach page (by omega)
        have hs := hsucc page
        have hwhole : ((memberIds lib (entries.take (poolSize limit page))).drop
            (page * sizeOf limit)).length ≤ sizeOf limit := by
          rw [List.length_drop]
          omega
        rw [← memberIds_take_append_drop lib entries (poolSize limit page), List.drop_append,
          Database.hydratePosts_append, db.hydratePosts_drop_eq_nil hbehind, List.append_nil,
          List.take_of_length_le hwhole]
    · obtain ⟨rfl, hnext⟩ := (trendingAnswers_page h.1 (hfits h.2)).mp hanswer
      have hs := hsucc page
      have hsplit := memberIds_take_append_drop lib entries (poolSize limit page)
      have hlength := congrArg List.length hsplit
      rw [List.length_append] at hlength
      split at hnext
      · next hmore =>
        obtain rfl := Option.some.inj hnext
        refine ⟨page + 1, ⟨parseCursor_toString (by omega), by omega⟩, by omega, ?_⟩
        rw [← hsplit, hsucc]
        exact hydratePosts_split (by omega)
      · cases hnext
  have h := hslices.enumerates (s := 0) ⟨by simp [parseCursor], by simp⟩
  rwa [Nat.zero_mul, List.drop_zero] at h

/-- The cursor at the start of a page. -/
def cursorOf (limit : Option Nat) : Nat → Option String
  | 0 => none
  | page + 1 => some (toString ((page + 1) * sizeOf limit))

theorem parseCursor_cursorOf {page : Nat} (h : page * sizeOf limit < 2 ^ 64) :
    parseCursor (cursorOf limit page) = page * sizeOf limit := by
  cases page with
  | zero => simp [cursorOf, parseCursor]
  | succ page => exact parseCursor_toString h

/-- The first pool that ends with its page ends the list: what is behind it is not shown. -/
theorem exists_follow_of_short {entries : List (String × Float)} {last : Nat}
    (hentries : entries.length < 2 ^ 58)
    (hmore : ∀ page < last,
      (page + 1) * sizeOf limit < (memberIds lib (entries.take (poolSize limit page))).length)
    (hshort : (memberIds lib (entries.take (poolSize limit last))).length
      ≤ (last + 1) * sizeOf limit) :
    ∃ pages, Lib.Follow (TrendingAnswers lib entries db viewer limit) none pages
      ∧ pages.flatten = db.hydratePosts (memberIds lib (entries.take (poolSize limit last))) := by
  obtain ⟨hpos, hle⟩ := sizeOf_bounds limit
  have hsucc (page : Nat) : (page + 1) * sizeOf limit = page * sizeOf limit + sizeOf limit :=
    Nat.succ_mul _ _
  have hfits {page : Nat} (h : page ≤ last) : poolSize limit page < 2 ^ 63 := by
    have hs := hsucc page
    unfold poolSize
    cases page with
    | zero => omega
    | succ page =>
      have hlt := hmore page h
      have hids : (memberIds lib (entries.take (poolSize limit page))).length ≤ entries.length :=
        (List.length_filterMap_le _ _).trans (List.length_take_le' _ _)
      omega
  have hcursor {page : Nat} (h : page ≤ last) :
      parseCursor (cursorOf limit page) = page * sizeOf limit := by
    have hf := hfits h
    have hs := hsucc page
    unfold poolSize at hf
    exact parseCursor_cursorOf (by omega)
  -- from the last page back to the first
  have hback : ∀ rest page, page + rest = last →
      ∃ pages, Lib.Follow (TrendingAnswers lib entries db viewer limit) (cursorOf limit page) pages
        ∧ pages.flatten = db.hydratePosts ((memberIds lib (entries.take (poolSize limit last))).drop
            (page * sizeOf limit)) := by
    intro rest
    induction rest with
    | zero =>
      intro page hpage
      obtain rfl : page = last := hpage
      have hwhole : ((memberIds lib (entries.take (poolSize limit page))).drop
          (page * sizeOf limit)).length ≤ sizeOf limit := by
        have hs := hsucc page
        have hb : (memberIds lib (entries.take (poolSize limit page))).length
          ≤ (page + 1) * sizeOf limit := hshort
        rw [List.length_drop]
        omega
      refine ⟨[_], .last ((trendingAnswers_page (hcursor le_rfl) (hfits le_rfl)).mpr
        ⟨rfl, (if_neg (not_lt.mpr hshort)).symm⟩), ?_⟩
      rw [List.flatten_singleton, List.take_of_length_le hwhole]
    | succ rest ih =>
      intro page hpage
      obtain ⟨pages, hfollow, hpages⟩ := ih (page + 1) (by omega)
      have hlt := hmore page (by omega)
      have hpool : poolSize limit page ≤ poolSize limit last := by
        unfold poolSize
        have hmul := Nat.mul_le_mul_right (sizeOf limit) (by omega : page + 1 ≤ last + 1)
        omega
      -- the last pool goes on where this one ends
      have hsplit := memberIds_take_append_drop lib (entries.take (poolSize limit last))
        (poolSize limit page)
      rw [List.take_take, Nat.min_eq_left hpool] at hsplit
      refine ⟨_ :: pages, .next ((trendingAnswers_page (hcursor (by omega)) (hfits (by omega))).mpr
        ⟨rfl, (if_pos hlt).symm⟩) hfollow, ?_⟩
      rw [List.flatten_cons, hpages, ← hsplit, hsucc]
      have hs := hsucc page
      exact (hydratePosts_split (by omega)).symm
  exact hback last 0 (Nat.zero_add last) |>.imp fun pages h => by
    rwa [Nat.zero_mul, List.drop_zero] at h

/-- **The pages of the trending set** are its posts exactly when the pools reach. -/
theorem enumerates_trendingAnswers_iff {entries : List (String × Float)}
    (hentries : entries.length < 2 ^ 58) :
    Enumerates (TrendingAnswers lib entries db viewer limit)
        (db.hydratePosts (memberIds lib entries))
      ↔ PoolReaches lib db entries limit := by
  refine ⟨?_, fun hreach => enumerates_trendingAnswers hentries hreach⟩
  intro henum page hshort
  have hexists : ∃ page, (memberIds lib (entries.take (poolSize limit page))).length
      ≤ (page + 1) * sizeOf limit := ⟨page, hshort⟩
  obtain ⟨first, hfirst, hle, hmin⟩ : ∃ first,
      (memberIds lib (entries.take (poolSize limit first))).length ≤ (first + 1) * sizeOf limit
        ∧ first ≤ page ∧ ∀ page < first,
          (page + 1) * sizeOf limit < (memberIds lib (entries.take (poolSize limit page))).length := by
    classical
    exact ⟨Nat.find hexists, Nat.find_spec hexists, Nat.find_min' hexists hshort,
      fun page hpage => not_le.mp (Nat.find_min hexists hpage)⟩
  obtain ⟨pages, hfollow, hpages⟩ := exists_follow_of_short hentries hmin hfirst
  have hall := henum.flatten_eq pages hfollow
  rw [hpages, ← memberIds_take_append_drop lib entries (poolSize limit first),
    Database.hydratePosts_append, List.self_eq_append_right] at hall
  -- what is behind a later pool is behind the first one
  have hpool : poolSize limit first ≤ poolSize limit page := by
    unfold poolSize
    have hmul : (first + 1) * sizeOf limit ≤ (page + 1) * sizeOf limit :=
      Nat.mul_le_mul_right _ (Nat.succ_le_succ hle)
    omega
  have hbehind := memberIds_take_append_drop lib
    (entries.drop (poolSize limit first))
    (poolSize limit page - poolSize limit first)
  rw [List.drop_drop, Nat.add_sub_cancel' hpool] at hbehind
  rw [← hbehind, Database.hydratePosts_append, List.append_eq_nil_iff] at hall
  exact hall.2

/-! ### When a request is answered exactly -/

/-- The ranked feed computes exact numbers: its sum does not wrap, and where it takes a slice of the
    list, the bounds of the slice are in order. -/
structure RankedExact (q : FeedQuery) (total : Nat) : Prop where
  sum : addUsize (parseCursor q.cursor) q.pageSize = parseCursor q.cursor + q.pageSize
  slice : parseCursor q.cursor < total →
    parseCursor q.cursor ≤ min (addUsize (parseCursor q.cursor) q.pageSize) total

/-- The trending feed computes exact numbers: neither sum wraps, and the size of the pool stays the
    same number when it is cast to `isize`. -/
structure TrendingExact (q : FeedQuery) : Prop where
  sum : addUsize (parseCursor q.cursor) q.pageSize = parseCursor q.cursor + q.pageSize
  pool : addUsize (addUsize (parseCursor q.cursor) q.pageSize) 50
    = addUsize (parseCursor q.cursor) q.pageSize + 50
  cast : asIsize (addUsize (addUsize (parseCursor q.cursor) q.pageSize) 50)
    = addUsize (addUsize (parseCursor q.cursor) q.pageSize) 50

/-- A next cursor is read as a larger offset than the one sent. -/
def Progresses (lib : Crates) (s : AppState) (viewer : Uuid) (q : FeedQuery) : Prop :=
  ∀ response c, getFeed lib s (.ok (some viewer)) q = .ok response → response.nextCursor = some c →
    parseCursor q.cursor < parseCursor (some c)

/-- The request is answered by exact arithmetic and makes progress, and the pages from the first one
    on are the posts of the cached feed. -/
structure FeedPaging (lib : Crates) (feed : CachedFeed) (db : Database) (viewer : Uuid)
    (q : FeedQuery) : Prop where
  exact : RankedExact q feed.items.length
  progresses (s : AppState) : s.cachedFeed = .ok (some feed) → Progresses lib s viewer q
  pages : Enumerates (FeedAnswers lib feed db viewer q.limit q.mode)
    (db.hydratePosts (feed.items.map CachedFeedItem.postId))

/-- The same of the trending feed and its set. -/
structure TrendingPaging (lib : Crates) (entries : List (String × Float)) (db : Database)
    (viewer : Uuid) (q : FeedQuery) : Prop where
  exact : TrendingExact q
  progresses (s : AppState) : s.trending = .ok entries → Progresses lib s viewer q
  pages : Enumerates (TrendingAnswers lib entries db viewer q.limit)
    (db.hydratePosts (memberIds lib entries))

/-- Where the sum fits, both feeds make progress. -/
theorem progresses_of_lt {s : AppState} {q : FeedQuery} (hmode : q.mode ≠ some "following")
    (hfits : parseCursor q.cursor + q.pageSize < 2 ^ 64) : Progresses lib s viewer q := by
  intro response c hget hnext
  by_cases htrending : q.mode = some "trending"
  · obtain ⟨entries, -, -, hnext'⟩ := getFeed_trending htrending hget
    exact lt_of_nextOffset hfits q.pageSize_pos (hnext' ▸ hnext)
  · have hnext' := (getFeed_ranked ⟨hmode, htrending⟩ hget).2
    exact lt_of_nextOffset hfits q.pageSize_pos (hnext' ▸ hnext)

/-- **When the pages are exact.**  The ranked feed computes exactly, makes progress and shows the
    whole cached feed page by page, if and only if the offset of the request and its limit do not
    exceed `usize`.  The trending feed does, if and only if they and the fifty more entries do not
    exceed `isize` and no pool of the set runs out of ids before the posts behind it.  A `Vec` holds
    at most `isize::MAX` bytes. -/
theorem paging_iff (lib : Crates) (feed : CachedFeed) (entries : List (String × Float))
    (db : Database) (viewer : Uuid) (q : FeedQuery) (hfeed : feed.items.length < 2 ^ 63)
    (hentries : entries.length < 2 ^ 58) :
    (q.Ranked →
        (FeedPaging lib feed db viewer q ↔ parseCursor q.cursor + q.pageSize < 2 ^ 64))
      ∧ (q.mode = some "trending" →
        (TrendingPaging lib entries db viewer q
          ↔ parseCursor q.cursor + q.pageSize + 50 < 2 ^ 63 ∧ PoolReaches lib db entries q.limit)) := by
  refine ⟨fun hmode => ⟨fun h => ?_, fun hfits => ?_⟩,
    fun hmode => ⟨fun h => ?_, fun ⟨hfits, hreach⟩ => ?_⟩⟩
  · exact addUsize_eq_iff.mp h.exact.sum
  · have hsum := addUsize_of_lt hfits
    refine ⟨⟨hsum, fun hin => ?_⟩, fun s _ => progresses_of_lt hmode.1 hfits,
      enumerates_feedAnswers hmode hfeed⟩
    rw [hsum]
    omega
  · have hsum := addUsize_eq_iff.mp h.exact.sum
    have hpool := addUsize_eq_iff.mp h.exact.pool
    have hcast := asIsize_eq_iff.mp h.exact.cast
    rw [h.exact.pool, h.exact.sum] at hcast
    exact ⟨hcast, (enumerates_trendingAnswers_iff hentries).mp h.pages⟩
  · have hsum : addUsize (parseCursor q.cursor) q.pageSize = parseCursor q.cursor + q.pageSize :=
      addUsize_of_lt (by omega)
    have hpool : addUsize (addUsize (parseCursor q.cursor) q.pageSize) 50
        = addUsize (parseCursor q.cursor) q.pageSize + 50 := addUsize_of_lt (by omega)
    have hfollowing : q.mode ≠ some "following" := by
      rw [hmode]
      decide
    refine ⟨⟨hsum, hpool, asIsize_eq_iff.mpr (by omega)⟩,
      fun s _ => progresses_of_lt hfollowing (by omega),
      (enumerates_trendingAnswers_iff hentries).mpr hreach⟩

/-! ### An offset at the top of `usize` -/

private def noTables : Database where
  users := []
  posts := []
  follows := []
  interactions := []
  reports := []
  usersKey := .nil
  postsKey := .nil
  followsKey := .nil
  authorsExist := nofun

/-- Thirty items. -/
private def thirtyItems : CachedFeed where
  generatedAt := 0
  source := "personalized"
  modelVersion := "two-tower-v1"
  items := List.replicate 30 ⟨1, 0.0, "personalized", "for-you", .unranked "personalized"⟩

private def oneId : Crates where
  parseUuid s := if s = "00000000-0000-0000-0000-000000000001" then some 1 else none
  parseFromRfc3339 _ := none
  uuidText _ := "00000000-0000-0000-0000-000000000001"
  toRfc3339 _ := ""

private def oneEntry : List (String × Float) := [("00000000-0000-0000-0000-000000000001", 1.0)]

theorem paging_first_page :
    FeedPaging oneId thirtyItems noTables 7 ⟨none, none, none⟩
      ∧ TrendingPaging oneId oneEntry noTables 7 ⟨some "20", none, some "trending"⟩ := by
  have hfeed : thirtyItems.items.length < 2 ^ 63 := by decide
  have hids : ∀ entry ∈ oneEntry, (oneId.parseUuid entry.1).isSome := by
    intro entry hentry
    rw [List.mem_singleton.mp hentry]
    decide
  refine ⟨((paging_iff oneId thirtyItems oneEntry noTables 7 _ hfeed (by decide)).1
      ⟨by decide, by decide⟩).mpr (by decide), ?_⟩
  exact ((paging_iff oneId thirtyItems oneEntry noTables 7 _ hfeed (by decide)).2 rfl).mpr
    ⟨by decide, poolReaches_of_ids hids⟩

/-- The greatest offset: the sum of offset and limit wraps to 19, the page is empty, and the next
    cursor is 19, smaller than the one sent. -/
theorem greatest_offset_wraps :
    addUsize (parseCursor (some "18446744073709551615")) 20 = 19
      ∧ ((getFeed oneId (metBy noTables thirtyItems []) (.ok (some 7))
          ⟨some "18446744073709551615", none, none⟩).toOption.bind FeedResponse.nextCursor) = some "19"
      ∧ parseCursor (some "19") < parseCursor (some "18446744073709551615")
      ∧ ¬ FeedPaging oneId thirtyItems noTables 7 ⟨some "18446744073709551615", none, none⟩
      ∧ ¬ TrendingPaging oneId oneEntry noTables 7
          ⟨some "18446744073709551615", none, some "trending"⟩ := by
  have hfeed : thirtyItems.items.length < 2 ^ 63 := by decide
  refine ⟨by decide, by decide, by decide, fun h => ?_, fun h => ?_⟩
  · exact absurd h.exact.sum (by decide)
  · exact absurd h.exact.sum (by decide)

end Oecophylla.Feed
