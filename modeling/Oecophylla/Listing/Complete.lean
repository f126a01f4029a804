import Oecophylla.Listing.Handlers

namespace Oecophylla.Listing

open Feed (Uuid Crates FeedPostRow)
open Feed.Database (BeforeCursor)
open Lib (Answer Complete Keyset NoTieAtPageEnd leftBy stableSort latestFirst)

/-!
# Which lists a reader sees completely

A reader follows `next_cursor` through the saved posts, the following feed, or the posts of a tag or
a topic, while the tables stay as they are.

* `keyset_getFeed` — the following feed pages by the time of creation and the id of the post;
* `complete_iff` — each of the four lists is complete exactly when no page ends in a group of rows
  with one time stamp.
-/

/-! ### The following feed -/

/-- The same rows in another order. -/
structure Rearranged (db db' : Feed.Database) : Prop where
  posts : db'.posts.Perm db.posts
  users : db'.users = db.users
  follows : db'.follows = db.follows

/-- What the following feed may answer a cursor: the order in which the tables are stored breaks the
    ties, and may be another one for each request. -/
def FollowingAnswers (lib : Crates) (db : Feed.Database) (viewer : Uuid) (limit : Option Nat)
    (cursor : Option String) (items : List FeedPostRow) (next : Option String) : Prop :=
  ∃ s : Feed.AppState, Rearranged db s.db ∧ ∃ response,
    Feed.getFeed lib s (.ok (some viewer)) ⟨cursor, limit, some "following"⟩ = .ok response
      ∧ response.items.map Feed.FeedItem.post = items ∧ response.nextCursor = next

variable {lib : Crates} {db db' : Feed.Database} {viewer : Uuid}

/-- The rows of the following feed after a cursor. -/
def followingRows (db : Feed.Database) (viewer : Uuid) (cursor : Option (Int × Uuid)) :
    List FeedPostRow :=
  db.joinUsers (db.joinFollows viewer (db.posts.filter fun p => BeforeCursor cursor p))

theorem followingRows_eq (cursor : Option (Int × Uuid)) :
    followingRows db viewer cursor
      = ((db.posts.filter fun p => BeforeCursor cursor p).filter fun p =>
          ⟨viewer, p.authorId⟩ ∈ db.follows).map db.rowOf := by
  unfold followingRows
  rw [Feed.Database.joinFollows_eq, Feed.Database.joinUsers_eq]
  exact fun p hp => List.mem_of_mem_filter (List.mem_of_mem_filter hp)

/-- The cursor is a condition on the joined rows. -/
theorem leftBy_followingRows (k : Option (Int × Uuid)) :
    leftBy FeedPostRow.createdAt FeedPostRow.id (followingRows db viewer none) k
      = followingRows db viewer k := by
  cases k with
  | none => rfl
  | some k =>
    show Lib.rest _ _ _ _ = _
    unfold Lib.rest
    rw [followingRows_eq, followingRows_eq, List.filter_map, List.filter_filter, List.filter_filter,
      List.filter_filter]
    congr 1
    apply List.filter_congr
    intro p _
    have hbelow : Lib.Below FeedPostRow.createdAt FeedPostRow.id k (db.rowOf p)
        ↔ Feed.Database.Before k p := Iff.rfl
    have hsome : BeforeCursor (some k) p ↔ p.status = .published ∧ Feed.Database.Before k p := by
      simp [BeforeCursor]
    have hnone : BeforeCursor none p ↔ p.status = .published := by simp [BeforeCursor]
    simp only [Function.comp_apply, hbelow, hsome, hnone]
    grind

/-- The order of the tables does not change which rows there are. -/
theorem Rearranged.followingRows_perm (h : Rearranged db db') (k : Option (Int × Uuid)) :
    (followingRows db' viewer k).Perm (followingRows db viewer k) := by
  unfold followingRows Feed.Database.joinUsers Feed.Database.joinFollows
  rw [h.users, h.follows]
  exact ((h.posts.filter _).flatMap_right _).flatMap_right _

/-- A permutation of the images is the image of a permutation. -/
private theorem exists_perm_map {α β : Type} {f : α → β} {l : List β} {xs : List α}
    (h : l.Perm (xs.map f)) : ∃ ys : List α, ys.Perm xs ∧ ys.map f = l := by
  induction xs generalizing l with
  | nil =>
    obtain rfl := List.perm_nil.mp h
    exact ⟨[], .refl _, rfl⟩
  | cons x xs ih =>
    obtain ⟨s, t, rfl⟩ := List.append_of_mem (h.mem_iff.mpr List.mem_cons_self)
    obtain ⟨ys, hperm, hmap⟩ := ih ((List.perm_middle.symm.trans h).cons_inv)
    obtain ⟨ys₁, ys₂, rfl, rfl, rfl⟩ := List.map_eq_append_iff.mp hmap
    exact ⟨ys₁ ++ x :: ys₂, List.perm_middle.trans (hperm.cons x), by simp⟩

/-- The tables in an order in which the posts after a cursor come as given. -/
private theorem exists_rearranged {k : Option (Int × Uuid)} {l : List FeedPostRow}
    (h : l.Perm (followingRows db viewer k)) :
    ∃ db', Rearranged db db' ∧ followingRows db' viewer k = l := by
  rw [followingRows_eq, List.filter_filter] at h
  obtain ⟨posts, hperm, rfl⟩ := exists_perm_map h
  have hposts : (posts ++ db.posts.filter fun p => !(decide (⟨viewer, p.authorId⟩ ∈ db.follows)
      && decide (BeforeCursor k p))).Perm db.posts :=
    (hperm.append_right _).trans (List.filter_append_perm _ db.posts)
  refine ⟨{ db with
    posts := _
    postsKey := ((hposts.map _).nodup_iff).mpr db.postsKey
    authorsExist := fun p hp => db.authorsExist p (hposts.mem_iff.mp hp) }, ⟨hposts, rfl, rfl⟩, ?_⟩
  rw [followingRows_eq, List.filter_filter]
  have hkeep : (posts ++ db.posts.filter fun p => !(decide (⟨viewer, p.authorId⟩ ∈ db.follows)
      && decide (BeforeCursor k p))).filter (fun p => decide (⟨viewer, p.authorId⟩ ∈ db.follows)
      && decide (BeforeCursor k p)) = posts := by
    rw [List.filter_append, List.filter_filter]
    have hall := List.filter_eq_self.mpr fun p hp =>
      (List.mem_filter.mp (hperm.mem_iff.mp hp)).2
    have hnone : db.posts.filter (fun p => (decide (⟨viewer, p.authorId⟩ ∈ db.follows)
        && decide (BeforeCursor k p)) && !(decide (⟨viewer, p.authorId⟩ ∈ db.follows)
          && decide (BeforeCursor k p))) = [] :=
      List.filter_eq_nil_iff.mpr fun p _ => by simp
    rw [hall, hnone, List.append_nil]
  show ((posts ++ _).filter _).map _ = _
  rw [hkeep]
  rfl

/-- The posts of a finished response. -/
private theorem map_post_finalize {s : Feed.AppState} {rows : List FeedPostRow}
    {next : Option String} {source modelVersion : String} {generatedAt : Int} :
    (Feed.finalizeFeedResponse s (rows.map Feed.followingItem) next source modelVersion
      generatedAt).items.map Feed.FeedItem.post = rows := by
  unfold Feed.finalizeFeedResponse
  apply List.ext_getElem
  · simp
  · intro i _ _
    simp [Feed.followingItem]

/-- What the following feed answers. -/
theorem followingAnswers_iff {limit : Option Nat} {c : Option String} {items : List FeedPostRow}
    {next : Option String} :
    FollowingAnswers lib db viewer limit c items next
      ↔ ∃ db', Rearranged db db'
        ∧ items = (stableSort (latestFirst FeedPostRow.createdAt)
            (followingRows db' viewer (Feed.parseFollowingCursor lib c))).take
              (min (max (limit.getD 20) 1) 50)
        ∧ next = nextCursor (fun r => lib.toRfc3339 r.createdAt ++ "|" ++ lib.uuidText r.id)
            (min (max (limit.getD 20) 1) 50) items := by
  constructor
  · rintro ⟨s, hs, response, hget, rfl, rfl⟩
    change Feed.followingFeedHandler lib s viewer c _ = _ at hget
    unfold Feed.followingFeedHandler at hget
    split at hget
    · cases hget
    · cases hget
      exact ⟨s.db, hs, map_post_finalize, by rw [map_post_finalize]; rfl⟩
  · rintro ⟨db', hdb', rfl, rfl⟩
    refine ⟨{ db := db', feedResultSize := 0, impressionLoggingEnabled := false
              cachedFeed := .ok none, recommendFeed := .error .other, trending := .error .other
              recentFails := false, pageFails := false, impressionsStored := false, requestId := 0
              impressionId := fun _ => 0, now := 0 }, hdb', _, rfl, map_post_finalize, rfl⟩

/-- **The following feed** pages by the time of creation and the id of the post. -/
theorem keyset_getFeed {limit : Option Nat}
    (hread : ∀ p ∈ db.posts, ReadsBack lib p.createdAt p.id) :
    Keyset (FollowingAnswers lib db viewer limit) FeedPostRow.createdAt FeedPostRow.id
      (min (max (limit.getD 20) 1) 50) (followingRows db viewer none)
      (fun r => lib.toRfc3339 r.createdAt ++ "|" ++ lib.uuidText r.id)
      fun c => Feed.parseFollowingCursor lib (some c) where
  respond_iff c items next := by
    have hcursor : (c.bind fun c => Feed.parseFollowingCursor lib (some c))
        = Feed.parseFollowingCursor lib c := by
      cases c with
      | none => rfl
      | some c => rfl
    rw [followingAnswers_iff, leftBy_followingRows, hcursor]
    constructor
    · rintro ⟨db', hdb', rfl, hnext⟩
      exact ⟨Lib.answer_stableSort (hdb'.followingRows_perm _), hnext⟩
    · rintro ⟨⟨l, hperm, hsorted, rfl⟩, hnext⟩
      obtain ⟨db', hdb', hrows⟩ := exists_rearranged hperm
      refine ⟨db', hdb', ?_, hnext⟩
      rw [hrows, Lib.stableSort_latestFirst hsorted]
  decode_encode r hr := by
    rw [followingRows_eq, List.mem_map] at hr
    obtain ⟨p, hp, rfl⟩ := hr
    exact parseFollowingCursor_text
      (hread p (List.mem_of_mem_filter (List.mem_of_mem_filter hp)))

/-- A followed post is in the feed once. -/
theorem nodup_followingRows : ((followingRows db viewer none).map FeedPostRow.id).Nodup := by
  rw [followingRows_eq, List.map_map, List.filter_filter]
  exact db.postsKey.sublist (List.filter_sublist.map _)

/-! ### The four lists -/

/-- **Which lists are complete.**  Whatever order the database gives to tied rows, a reader of the
    saved posts, of the following feed, and of the posts of a tag or a topic sees every row exactly
    once and comes to an end, if and only if no page of that list ends in a group of rows with one
    time stamp. -/
theorem complete_iff (lib : Crates) (b64 : Base64) (db : Database) (feed : Feed.Database)
    (user : Uuid) (tag topic : String) (otherTopic : Option String) (authorId : Option Uuid)
    (limit : Option Int) (feedLimit : Option Nat)
    (hb64 : ∀ p ∈ db.posts, b64.decode (encodeCursor lib b64 p)
      = some (lib.toRfc3339 p.createdAt ++ "|" ++ lib.uuidText p.id))
    (hsaves : ∀ r ∈ db.savedRows user, ReadsBack lib r.savedAt r.id)
    (hposts : ∀ p ∈ db.posts, ReadsBack lib p.createdAt p.id)
    (hfeed : ∀ p ∈ feed.posts, ReadsBack lib p.createdAt p.id) :
    (Complete (SavedAnswers lib db user limit) (db.savedRows user)
        ↔ NoTieAtPageEnd SavedPostRow.savedAt SavedPostRow.id (clampLimit limit) (db.savedRows user))
      ∧ (Complete (FollowingAnswers lib feed user feedLimit) (followingRows feed user none)
        ↔ NoTieAtPageEnd FeedPostRow.createdAt FeedPostRow.id (min (max (feedLimit.getD 20) 1) 50)
            (followingRows feed user none))
      ∧ (Complete (ListAnswers lib db b64 (some tag) otherTopic authorId limit) (db.taggedPosts tag)
        ↔ NoTieAtPageEnd PostRow.createdAt PostRow.id (clampLimit limit) (db.taggedPosts tag))
      ∧ (Complete (ListAnswers lib db b64 none (some topic) authorId limit) (db.topicPosts topic)
        ↔ NoTieAtPageEnd PostRow.createdAt PostRow.id (clampLimit limit) (db.topicPosts topic)) := by
  have hkeys {keep : PostRow → Bool} : ((db.posts.filter keep).map PostRow.id).Nodup :=
    db.postsKey.sublist (List.filter_sublist.map _)
  refine ⟨?_, ?_, ?_, ?_⟩
  · exact (keyset_listSavedPosts hsaves).isComplete_iff (clampLimit_pos limit) (nodup_savedRows user)
  · exact (keyset_getFeed hfeed).isComplete_iff (by omega) nodup_followingRows
  · exact (keyset_list_tag hb64 hposts).isComplete_iff (clampLimit_pos limit) hkeys
  · exact (keyset_list_topic hb64 hposts).isComplete_iff (clampLimit_pos limit) hkeys

/-! ### Two posts -/

private def texts : List (Int × String) :=
  [(1767225600000000, "2026-01-01T00:00:00+00:00"), (1767312000000000, "2026-01-02T00:00:00+00:00")]

private def ids : List (Uuid × String) :=
  [(1, "00000000-0000-0000-0000-000000000001"), (2, "00000000-0000-0000-0000-000000000002")]

private def crates : Crates where
  parseUuid s := (ids.find? fun e => e.2 = s).map Prod.fst
  parseFromRfc3339 s := (texts.find? fun e => e.2 = s).map Prod.fst
  uuidText id := (ids.lookup id).getD ""
  toRfc3339 t := (texts.lookup t).getD ""

private def cursors : List (String × String) :=
  [("2026-01-01T00:00:00+00:00|00000000-0000-0000-0000-000000000001",
      "MjAyNi0wMS0wMVQwMDowMDowMCswMDowMHwwMDAwMDAwMC0wMDAwLTAwMDAtMDAwMC0wMDAwMDAwMDAwMDE"),
    ("2026-01-01T00:00:00+00:00|00000000-0000-0000-0000-000000000002",
      "MjAyNi0wMS0wMVQwMDowMDowMCswMDowMHwwMDAwMDAwMC0wMDAwLTAwMDAtMDAwMC0wMDAwMDAwMDAwMDI"),
    ("2026-01-02T00:00:00+00:00|00000000-0000-0000-0000-000000000002",
      "MjAyNi0wMS0wMlQwMDowMDowMCswMDowMHwwMDAwMDAwMC0wMDAwLTAwMDAtMDAwMC0wMDAwMDAwMDAwMDI")]

private def urlSafe : Base64 where
  encode s := (cursors.lookup s).getD ""
  decode s := (cursors.find? fun e => e.2 = s).map Prod.fst

private def authorRow : Feed.User := ⟨9, "ada", none, none, true⟩

private def postRow (id : Uuid) (createdAt : Int) : PostRow where
  id := id
  authorId := 9
  content := "leaf"
  mediaUrls := []
  tags := ["ants"]
  topics := ["nature"]
  safetyScore := 1.0
  status := .published
  viewCount := 0
  likeCount := 0
  commentCount := 0
  saveCount := 1
  shareCount := 0
  createdAt := createdAt
  updatedAt := createdAt

/-- Two posts of one author, saved by user 7 when they were created. -/
private def twoPosts (t₁ t₂ : Int) : Database where
  users := [authorRow]
  posts := [postRow 1 t₁, postRow 2 t₂]
  interactions := [⟨7, 1, .save, t₁⟩, ⟨7, 2, .save, t₂⟩]
  usersKey := by decide
  postsKey := (by decide : [1, 2].Nodup)
  interactionsKey := (by decide : [(7, 1, Feed.InteractionType.save), (7, 2, .save)].Nodup)

private def feedPost (id : Uuid) (createdAt : Int) : Feed.Post where
  id := id
  authorId := 9
  content := "leaf"
  topics := ["nature"]
  safetyScore := 1.0
  status := .published
  createdAt := createdAt

/-- The same two posts as the feed reads them; user 7 follows the author. -/
private def twoFeedPosts (t₁ t₂ : Int) : Feed.Database where
  users := [authorRow]
  posts := [feedPost 1 t₁, feedPost 2 t₂]
  follows := [⟨7, 9⟩]
  interactions := []
  reports := []
  usersKey := by decide
  postsKey := (by decide : [1, 2].Nodup)
  followsKey := by decide
  authorsExist := by
    intro p hp
    refine ⟨authorRow, List.mem_singleton_self _, ?_⟩
    simp only [List.mem_cons, List.not_mem_nil, or_false] at hp
    rcases hp with rfl | rfl
    · rfl
    · rfl

private abbrev first : Int := 1767225600000000

private abbrev second : Int := 1767312000000000

private theorem readsBack_first : ReadsBack crates first 1 := ⟨by decide, by decide, by decide⟩

private theorem readsBack_tied : ReadsBack crates first 2 := ⟨by decide, by decide, by decide⟩

private theorem readsBack_second : ReadsBack crates second 2 := ⟨by decide, by decide, by decide⟩

theorem complete_iff_distinct :
    Complete (SavedAnswers crates (twoPosts first second) 7 (some 1))
        ((twoPosts first second).savedRows 7)
      ∧ Complete (FollowingAnswers crates (twoFeedPosts first second) 7 (some 1))
        (followingRows (twoFeedPosts first second) 7 none)
      ∧ Complete (ListAnswers crates (twoPosts first second) urlSafe (some "ants") none none (some 1))
        ((twoPosts first second).taggedPosts "ants")
      ∧ Complete (ListAnswers crates (twoPosts first second) urlSafe none (some "nature") none (some 1))
        ((twoPosts first second).topicPosts "nature") := by
  have hposts : ∀ p ∈ (twoPosts first second).posts, ReadsBack crates p.createdAt p.id := by
    intro p hp
    rcases List.mem_pair.mp hp with rfl | rfl
    · exact readsBack_first
    · exact readsBack_second
  have hfeed : ∀ p ∈ (twoFeedPosts first second).posts, ReadsBack crates p.createdAt p.id := by
    intro p hp
    rcases List.mem_pair.mp hp with rfl | rfl
    · exact readsBack_first
    · exact readsBack_second
  have hsaves : ∀ r ∈ (twoPosts first second).savedRows 7, ReadsBack crates r.savedAt r.id := by
    intro r hr
    rcases List.mem_pair.mp (hr : r ∈ [_, _]) with rfl | rfl
    · exact readsBack_first
    · exact readsBack_second
  have h := complete_iff crates urlSafe (twoPosts first second) (twoFeedPosts first second) 7 "ants"
    "nature" none none (some 1) (some 1) (by decide) hsaves hposts hfeed
  exact ⟨h.1.mpr (by decide), h.2.1.mpr (by decide), h.2.2.1.mpr (by decide),
    h.2.2.2.mpr (by decide)⟩

/-- Two posts of one time stamp and pages of one post: the database may show post 1 first, and
    post 2 is then on no page.  None of the four lists is complete. -/
theorem tied_post_lost :
    Lib.Follow (ListAnswers crates (twoPosts first first) urlSafe (some "ants") none none (some 1))
        none [[postRow 1 first], []]
      ∧ ¬ Complete (SavedAnswers crates (twoPosts first first) 7 (some 1))
        ((twoPosts first first).savedRows 7)
      ∧ ¬ Complete (FollowingAnswers crates (twoFeedPosts first first) 7 (some 1))
        (followingRows (twoFeedPosts first first) 7 none)
      ∧ ¬ Complete (ListAnswers crates (twoPosts first first) urlSafe (some "ants") none none (some 1))
        ((twoPosts first first).taggedPosts "ants")
      ∧ ¬ Complete (ListAnswers crates (twoPosts first first) urlSafe none (some "nature") none (some 1))
        ((twoPosts first first).topicPosts "nature") := by
  have hposts : ∀ p ∈ (twoPosts first first).posts, ReadsBack crates p.createdAt p.id := by
    intro p hp
    rcases List.mem_pair.mp hp with rfl | rfl
    · exact readsBack_first
    · exact readsBack_tied
  have hfeed : ∀ p ∈ (twoFeedPosts first first).posts, ReadsBack crates p.createdAt p.id := by
    intro p hp
    rcases List.mem_pair.mp hp with rfl | rfl
    · exact readsBack_first
    · exact readsBack_tied
  have hsaves : ∀ r ∈ (twoPosts first first).savedRows 7, ReadsBack crates r.savedAt r.id := by
    intro r hr
    rcases List.mem_pair.mp (hr : r ∈ [_, _]) with rfl | rfl
    · exact readsBack_first
    · exact readsBack_tied
  have htag : Keyset (ListAnswers crates (twoPosts first first) urlSafe (some "ants") none none
      (some 1)) _ _ _ _ _ _ := keyset_list_tag (by decide) hposts
  refine ⟨?_, ?_, ?_, ?_, ?_⟩
  · refine (htag.follow_iff (by decide)).mpr ?_
    have hpage : Answer PostRow.createdAt 1 [postRow 1 first, postRow 2 first] [postRow 1 first] :=
      ⟨[postRow 1 first, postRow 2 first], .refl _, by simp [postRow], rfl⟩
    exact .next hpage rfl rfl (.last ⟨[], .refl _, .nil, rfl⟩ (by decide))
  · rw [(keyset_listSavedPosts hsaves).isComplete_iff (clampLimit_pos _) (nodup_savedRows 7)]
    decide
  · rw [(keyset_getFeed hfeed).isComplete_iff (by decide) nodup_followingRows]
    decide
  · rw [htag.isComplete_iff (clampLimit_pos _) (by decide)]
    decide
  · rw [(keyset_list_topic (by decide) hposts).isComplete_iff (clampLimit_pos _) (by decide)]
    decide

end Oecophylla.Listing
