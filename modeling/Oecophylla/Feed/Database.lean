import Oecophylla.Lib.StableSort

namespace Oecophylla.Feed

open Lib (stableSort)

/-!
# The feed service — its tables and queries (`feed-service/src/repo.rs`)

`Database` has the rows of the tables that the feed reads, in the order the database stores them,
with the keys and the reference that the migrations declare.  That order breaks the ties of an
`ORDER BY`: it stands for the choice of the planner.

* `hydratePosts`, `followingFeed`, `recentPublished` — the three queries that return posts;
* `Eligible` — what the viewer may be served;
* `mem_hydratePosts_iff`, `mem_followingFeed_iff`, `mem_slice_recentPublished_iff` — which posts the
  queries return.
-/

/-- A UUID, as the number it writes in hexadecimal. -/
abbrev Uuid := Nat

/-- `post_status`. -/
inductive PostStatus where
  | pending
  | published
  | hidden
  | flagged
  deriving DecidableEq, Repr

/-- `interaction_type`. -/
inductive InteractionType where
  | like
  | save
  | share
  | hide
  | report
  deriving DecidableEq, Repr

/-- A row of `users`. -/
structure User where
  id : Uuid
  username : String
  displayName : Option String
  avatarUrl : Option String
  isActive : Bool
  deriving DecidableEq, Repr, Inhabited

/-- A row of `posts`; `createdAt` is in microseconds. -/
structure Post where
  id : Uuid
  authorId : Uuid
  content : String
  topics : List String
  safetyScore : Float32
  status : PostStatus
  createdAt : Int

/-- A row of `follows`. -/
structure Follow where
  followerId : Uuid
  followeeId : Uuid
  deriving DecidableEq, Repr

/-- A row of `interactions`. -/
structure Interaction where
  userId : Uuid
  postId : Uuid
  type : InteractionType
  deriving DecidableEq, Repr

/-- A row of `reports`; the reporter is gone when the account was deleted. -/
structure Report where
  reporterId : Option Uuid
  postId : Uuid
  deriving DecidableEq, Repr

/-- The tables. -/
structure Database where
  users : List User
  posts : List Post
  follows : List Follow
  interactions : List Interaction
  reports : List Report
  usersKey : (users.map User.id).Nodup
  postsKey : (posts.map Post.id).Nodup
  followsKey : follows.Nodup
  authorsExist : ∀ p ∈ posts, ∃ u ∈ users, u.id = p.authorId

/-- `FeedPostRow`: a post with what it shows of its author. -/
structure FeedPostRow where
  id : Uuid
  authorId : Uuid
  username : String
  displayName : Option String
  avatarUrl : Option String
  content : String
  topics : List String
  safetyScore : Float32
  createdAt : Int

/-- The columns of a post and its author. -/
def Post.row (p : Post) (u : User) : FeedPostRow where
  id := p.id
  authorId := p.authorId
  username := u.username
  displayName := u.displayName
  avatarUrl := u.avatarUrl
  content := p.content
  topics := p.topics
  safetyScore := p.safetyScore
  createdAt := p.createdAt

/-- `ORDER BY p.created_at DESC`. -/
def newest (a b : FeedPostRow) : Ordering := compare b.createdAt a.createdAt

namespace Database

variable (db : Database)

/-! ### The queries -/

/-- `JOIN users u ON u.id = p.author_id`. -/
def joinUsers (posts : List Post) : List FeedPostRow :=
  posts.flatMap fun p => (db.users.filter fun u => u.id = p.authorId).map p.row

/-- `JOIN follows f ON f.followee_id = p.author_id … WHERE f.follower_id = $1`. -/
def joinFollows (userId : Uuid) (posts : List Post) : List Post :=
  posts.flatMap fun p =>
    (db.follows.filter fun f => f.followeeId = p.authorId ∧ f.followerId = userId).map fun _ => p

/-- `hydrate_posts(db, ids)`: one row for each position of `ids`, in their order. -/
def hydratePosts (ids : List Uuid) : List FeedPostRow :=
  ids.flatMap fun id => db.joinUsers (db.posts.filter fun p => p.id = id ∧ p.status = .published)

/-- `(p.created_at, p.id) < ($2, $3)`. -/
def Before (cursor : Int × Uuid) (p : Post) : Prop :=
  p.createdAt < cursor.1 ∨ p.createdAt = cursor.1 ∧ p.id < cursor.2

instance (cursor : Int × Uuid) (p : Post) : Decidable (Before cursor p) :=
  inferInstanceAs (Decidable (_ ∨ _))

/-- The `WHERE` clause of `following_feed`, without the join. -/
def BeforeCursor (cursor : Option (Int × Uuid)) (p : Post) : Prop :=
  p.status = .published ∧ ∀ c ∈ cursor, Before c p

instance (cursor : Option (Int × Uuid)) (p : Post) : Decidable (BeforeCursor cursor p) :=
  inferInstanceAs (Decidable (_ ∧ _))

/-- `following_feed(db, user_id, cursor, limit)`. -/
def followingFeed (userId : Uuid) (cursor : Option (Int × Uuid)) (limit : Nat) : List FeedPostRow :=
  (stableSort newest (db.joinUsers (db.joinFollows userId (db.posts.filter (BeforeCursor cursor))))).take
    limit

/-- `recent_published(db, limit)`. -/
def recentPublished (limit : Nat) : List FeedPostRow :=
  (stableSort newest (db.joinUsers (db.posts.filter fun p => p.status = .published))).take limit

/-! ### What a viewer may be served -/

/-- The viewer has hidden the post. -/
def Hidden (viewer postId : Uuid) : Prop :=
  ∃ i ∈ db.interactions, i.userId = viewer ∧ i.postId = postId ∧ i.type = .hide

/-- The viewer has reported the post. -/
def Reported (viewer postId : Uuid) : Prop :=
  ∃ r ∈ db.reports, r.reporterId = some viewer ∧ r.postId = postId

/-- The user is active. -/
def Active (userId : Uuid) : Prop := ∃ u ∈ db.users, u.id = userId ∧ u.isActive = true

/-- The post is published. -/
def Published (postId : Uuid) : Prop := ∃ p ∈ db.posts, p.id = postId ∧ p.status = .published

instance (viewer postId : Uuid) : Decidable (db.Hidden viewer postId) :=
  inferInstanceAs (Decidable (∃ _ ∈ _, _))

instance (viewer postId : Uuid) : Decidable (db.Reported viewer postId) :=
  inferInstanceAs (Decidable (∃ _ ∈ _, _))

instance (userId : Uuid) : Decidable (db.Active userId) :=
  inferInstanceAs (Decidable (∃ _ ∈ _, _))

/-- Nothing but the status of a post speaks against serving it. -/
def Clean (viewer postId authorId : Uuid) : Prop :=
  ¬ db.Hidden viewer postId ∧ ¬ db.Reported viewer postId ∧ db.Active authorId

/-- The viewer may be served the post. -/
def Eligible (viewer : Uuid) (post : FeedPostRow) : Prop :=
  db.Published post.id ∧ db.Clean viewer post.id post.authorId

/-- The posts of the authors that the viewer follows, published and before the cursor. -/
def followedPosts (viewer : Uuid) (cursor : Option (Int × Uuid)) : List Post :=
  db.posts.filter fun p => BeforeCursor cursor p ∧ ⟨viewer, p.authorId⟩ ∈ db.follows

/-- The published posts. -/
def publishedPosts : List Post := db.posts.filter fun p => p.status = .published

/-- The place of a post in the table. -/
def place (p : Post) : Nat := (db.posts.map Post.id).idxOf p.id

/-- The database returns `q` before `p` when the newest come first. -/
def Ahead (q p : Post) : Prop :=
  p.createdAt < q.createdAt ∨ q.createdAt = p.createdAt ∧ db.place q < db.place p

instance (q p : Post) : Decidable (db.Ahead q p) := inferInstanceAs (Decidable (_ ∨ _))

/-- How many of the posts come before a post. -/
def rank (posts : List Post) (p : Post) : Nat := posts.countP fun q => db.Ahead q p

/-! ### The joins -/

variable {db}

/-- The author of a post. -/
def authorOf (db : Database) (p : Post) : User :=
  (db.users.find? fun u => u.id = p.authorId).getD default

/-- A post as a page shows it. -/
def rowOf (db : Database) (p : Post) : FeedPostRow := p.row (db.authorOf p)

private theorem filter_key_eq {α : Type} {key : α → Uuid} {l : List α} (hnodup : (l.map key).Nodup)
    {k : Uuid} {x : α} (hx : l.find? (fun y => key y = k) = some x) :
    l.filter (fun y => key y = k) = [x] := by
  induction l with
  | nil => simp at hx
  | cons a l ih =>
    obtain ⟨ha, hl⟩ := List.nodup_cons.mp hnodup
    by_cases hk : key a = k
    · rw [List.find?_cons_of_pos (by simpa using hk), Option.some.injEq] at hx
      subst hx
      have hrest : l.filter (fun y => key y = k) = [] := by
        apply List.filter_eq_nil_iff.mpr
        intro b hb
        have hne : key b ≠ key a := fun heq => ha (heq ▸ List.mem_map_of_mem hb)
        simpa [← hk] using hne
      rw [List.filter_cons_of_pos (by simpa using hk), hrest]
    · rw [List.find?_cons_of_neg (by simpa using hk)] at hx
      rw [List.filter_cons_of_neg (by simpa using hk), ih hl hx]

/-- The join with the users adds its author to each post. -/
theorem joinUsers_eq {posts : List Post} (hsub : posts ⊆ db.posts) :
    db.joinUsers posts = posts.map db.rowOf := by
  rw [joinUsers, List.map_eq_flatMap]
  apply List.flatMap_congr
  intro p hp
  obtain ⟨u, hu, hid⟩ := db.authorsExist p (hsub hp)
  have hsome : (db.users.find? fun u => u.id = p.authorId).isSome := by
    rw [List.find?_isSome]
    exact ⟨u, hu, by simpa using hid⟩
  obtain ⟨author, hauthor⟩ := Option.isSome_iff_exists.mp hsome
  have hof : db.authorOf p = author := by rw [authorOf, hauthor, Option.getD_some]
  rw [filter_key_eq db.usersKey hauthor, ← hof]
  rfl

private theorem follows_of (viewer author : Uuid) :
    (db.follows.filter fun f => f.followeeId = author ∧ f.followerId = viewer).length
      = if ⟨viewer, author⟩ ∈ db.follows then 1 else 0 := by
  have hfilter : (db.follows.filter fun f => f.followeeId = author ∧ f.followerId = viewer)
      = db.follows.filter (· == ⟨viewer, author⟩) := by
    apply List.filter_congr
    rintro ⟨follower, followee⟩ _
    simp [and_comm, Bool.beq_eq_decide_eq]
  rw [hfilter, List.filter_beq, List.length_replicate, db.followsKey.count]

/-- The join with the follows keeps the posts of the followed authors. -/
theorem joinFollows_eq (viewer : Uuid) (posts : List Post) :
    db.joinFollows viewer posts = posts.filter fun p => ⟨viewer, p.authorId⟩ ∈ db.follows := by
  unfold joinFollows
  induction posts with
  | nil => rfl
  | cons p posts ih =>
    rw [List.flatMap_cons, ih, List.map_const', follows_of viewer p.authorId]
    by_cases hmem : (⟨viewer, p.authorId⟩ : Follow) ∈ db.follows
    · rw [if_pos hmem, List.filter_cons_of_pos (by simpa using hmem)]
      rfl
    · rw [if_neg hmem, List.filter_cons_of_neg (by simpa using hmem)]
      rfl

/-! ### Which posts the queries return -/

/-- The hydrated posts are the published ones among the ids. -/
theorem mem_hydratePosts_iff {ids : List Uuid} {row : FeedPostRow} :
    row ∈ db.hydratePosts ids
      ↔ ∃ p ∈ db.posts, p.status = .published ∧ p.id ∈ ids ∧ row = db.rowOf p := by
  unfold hydratePosts
  rw [List.mem_flatMap]
  constructor
  · rintro ⟨id, hid, hrow⟩
    rw [joinUsers_eq List.filter_sublist.subset, List.mem_map] at hrow
    obtain ⟨p, hp, rfl⟩ := hrow
    obtain ⟨hmem, hsel⟩ := List.mem_filter.mp hp
    obtain ⟨rfl, hpub⟩ : p.id = id ∧ p.status = .published := by simpa using hsel
    exact ⟨p, hmem, hpub, hid, rfl⟩
  · rintro ⟨p, hp, hpub, hid, rfl⟩
    refine ⟨p.id, hid, ?_⟩
    rw [joinUsers_eq List.filter_sublist.subset]
    apply List.mem_map_of_mem
    exact List.mem_filter.mpr ⟨hp, by simp [hpub]⟩

/-- The table is in the order of the places. -/
theorem pairwise_place : db.posts.Pairwise fun p q => db.place p < db.place q := by
  rw [List.pairwise_iff_getElem]
  intro i j hi hj hij
  have hplace : ∀ k (hk : k < db.posts.length), db.place db.posts[k] = k := by
    intro k hk
    have hkey := db.postsKey.idxOf_getElem k (by simpa using hk)
    rw [List.getElem_map] at hkey
    exact hkey
  rw [hplace i hi, hplace j hj]
  exact hij

/-- The order of the rows, on their posts. -/
def newestPost (db : Database) (p q : Post) : Ordering := newest (db.rowOf p) (db.rowOf q)

instance : Std.TransCmp db.newestPost :=
  inferInstanceAs (Std.TransCmp (Lib.compareBy (fun a b : Int => compare b a) Post.createdAt))

/-- The posts ahead of a post are those that the sort puts before it. -/
theorem rank_eq (posts : List Post) (p : Post) :
    db.rank posts p = posts.countP fun q => Lib.compareAt db.newestPost db.place q p == .lt := by
  apply List.countP_congr
  intro q _
  show _ ↔ ((compare p.createdAt q.createdAt).then (compare (db.place q) (db.place p)) == .lt) = true
  rw [beq_iff_eq, decide_eq_true_iff, Ordering.then_eq_lt, compare_lt_iff_lt, compare_eq_iff_eq,
    compare_lt_iff_lt, eq_comm (a := p.createdAt)]
  exact Iff.rfl

/-- **Slices of the newest posts.**  The joined rows from `m` to `n`, newest first, are those of the
    posts with as many others ahead of them. -/
theorem mem_slice_newest_iff {posts : List Post} (hsub : posts.Sublist db.posts) {m n : Nat}
    {row : FeedPostRow} :
    row ∈ ((stableSort newest (db.joinUsers posts)).take n).drop m
      ↔ ∃ p ∈ posts, m ≤ db.rank posts p ∧ db.rank posts p < n ∧ row = db.rowOf p := by
  rw [joinUsers_eq hsub.subset, Lib.stableSort_map, ← List.map_take, ← List.map_drop, List.mem_map]
  show (∃ p, p ∈ ((stableSort db.newestPost posts).take n).drop m ∧ _) ↔ _
  simp only [rank_eq, Lib.mem_slice_stableSort_iff (pairwise_place.sublist hsub), and_assoc,
    eq_comm (a := row)]

/-- The following feed has the posts of the followed authors that come before the limit. -/
theorem mem_followingFeed_iff {viewer : Uuid} {cursor : Option (Int × Uuid)} {limit : Nat}
    {row : FeedPostRow} :
    row ∈ db.followingFeed viewer cursor limit
      ↔ ∃ p ∈ db.followedPosts viewer cursor,
        db.rank (db.followedPosts viewer cursor) p < limit ∧ row = db.rowOf p := by
  have hposts : db.joinFollows viewer (db.posts.filter (BeforeCursor cursor))
      = db.followedPosts viewer cursor := by
    rw [joinFollows_eq, List.filter_filter]
    apply List.filter_congr
    intro p _
    rw [Bool.decide_and, Bool.and_comm]
  have hsub : (db.followedPosts viewer cursor).Sublist db.posts := List.filter_sublist
  unfold followingFeed
  rw [hposts, ← List.drop_zero (l := List.take _ _), mem_slice_newest_iff hsub]
  simp only [Nat.zero_le, true_and]

/-- A slice of the recent posts has the published posts at its ranks. -/
theorem mem_slice_recentPublished_iff {limit m n : Nat} {row : FeedPostRow} :
    row ∈ ((db.recentPublished limit).take n).drop m
      ↔ ∃ p ∈ db.publishedPosts, m ≤ db.rank db.publishedPosts p
        ∧ db.rank db.publishedPosts p < n ∧ db.rank db.publishedPosts p < limit
        ∧ row = db.rowOf p := by
  unfold recentPublished
  rw [List.take_take]
  have hsub : db.publishedPosts.Sublist db.posts := List.filter_sublist
  show row ∈ ((stableSort newest (db.joinUsers db.publishedPosts)).take _).drop m ↔ _
  rw [mem_slice_newest_iff hsub]
  simp only [Nat.lt_min, and_assoc]

end Database

end Oecophylla.Feed
