import Oecophylla.Feed.Handlers
import Oecophylla.Lib.Paging

namespace Oecophylla.Listing

open Feed (Uuid Crates InteractionType PostStatus User)
open Lib (Below Plan stableSort latestFirst Keyset)

/-!
# Lists of posts by time (`interaction-service`, `content-service`)

The saved posts of a user and the posts of a tag or a topic.  Both are read with `ORDER BY … DESC`
on a time stamp and a cursor of time stamp and post id; `Plan` is the order in which the database
reads the rows, which breaks the ties.

* `listSavedPosts`, `list` — the two handlers, with their queries;
* `keyset_listSavedPosts`, `keyset_list` — each pages by its time stamp and the id of the post.
-/

/-! ### The tables -/

/-- A row of `posts`, `PostRow`; the times are in microseconds. -/
structure PostRow where
  id : Uuid
  authorId : Uuid
  content : String
  mediaUrls : List String
  tags : List String
  topics : List String
  safetyScore : Float32
  status : PostStatus
  viewCount : Int
  likeCount : Int
  commentCount : Int
  saveCount : Int
  shareCount : Int
  createdAt : Int
  updatedAt : Int

/-- A row of `interactions`. -/
structure Interaction where
  userId : Uuid
  postId : Uuid
  type : InteractionType
  createdAt : Int

/-- The tables, with their keys. -/
structure Database where
  users : List User
  posts : List PostRow
  interactions : List Interaction
  usersKey : (users.map User.id).Nodup
  postsKey : (posts.map PostRow.id).Nodup
  interactionsKey : (interactions.map fun i => (i.userId, i.postId, i.type)).Nodup

/-- `SavedPostRow`: a post, what it shows of its author, and when it was saved. -/
structure SavedPostRow where
  post : PostRow
  username : String
  displayName : Option String
  avatarUrl : Option String
  savedAt : Int

/-- The id of a saved post. -/
def SavedPostRow.id (r : SavedPostRow) : Uuid := r.post.id

/-- `AppError`, as these handlers return it. -/
inductive AppError where
  | unauthorized
  | validation (field message : String)
  deriving DecidableEq, Repr

/-! ### A page of a query -/

section Page

variable {ρ : Type}

/-- `WHERE (stamp, id) < cursor ORDER BY stamp DESC LIMIT limit`; the first page has no cursor. -/
def queryPage (stamp : ρ → Int) (id : ρ → Uuid) (plan : Plan ρ) (rows : List ρ)
    (cursor : Option (Int × Uuid)) (limit : Nat) : List ρ :=
  (stableSort (latestFirst stamp)
    (plan.arrange (rows.filter fun r => ∀ c ∈ cursor, Below stamp id c r))).take limit

/-- `q.limit.unwrap_or(20).clamp(1, 100)`. -/
def clampLimit (limit : Option Int) : Nat := (min (max (limit.getD 20) 1) 100).toNat

/-- `if rows.len() as i64 == limit { rows.last().map(encode) } else { None }`. -/
def nextCursor (encode : ρ → String) (limit : Nat) (rows : List ρ) : Option String :=
  if rows.length = limit then rows.getLast?.map encode else none

end Page

variable (lib : Crates) (db : Database)

/-! ### Saved posts -/

/-- `SavedQuery`. -/
structure SavedQuery where
  cursor : Option String
  limit : Option Int
  deriving DecidableEq, Repr

/-- `SavedResponse`. -/
structure SavedResponse where
  items : List SavedPostRow
  nextCursor : Option String

/-- `interactions i JOIN posts p ON p.id = i.post_id JOIN users u ON u.id = p.author_id
    WHERE i.user_id = $1 AND i.type = 'save'`. -/
def Database.savedRows (userId : Uuid) : List SavedPostRow :=
  (db.interactions.filter fun i => i.userId = userId ∧ i.type = .save).flatMap fun i =>
    (db.posts.filter fun p => p.id = i.postId).flatMap fun p =>
      (db.users.filter fun u => u.id = p.authorId).map fun u =>
        { post := p, username := u.username, displayName := u.displayName, avatarUrl := u.avatarUrl,
          savedAt := i.createdAt }

/-- The cursor after a saved post: `timestamp|id`. -/
def savedCursor (r : SavedPostRow) : String := lib.toRfc3339 r.savedAt ++ "|" ++ lib.uuidText r.id

/-- `list_saved_posts`; `me` is what `current` returns. -/
def listSavedPosts (plan : Plan SavedPostRow) (me : Option Uuid) (q : SavedQuery) :
    Except AppError SavedResponse :=
  match me with
  | none => .error .unauthorized
  | some userId =>
    let limit := clampLimit q.limit
    let rows := queryPage SavedPostRow.savedAt SavedPostRow.id plan (db.savedRows userId)
      (Feed.parseFollowingCursor lib q.cursor) limit
    .ok ⟨rows, nextCursor (savedCursor lib) limit rows⟩

/-! ### Posts of a tag or a topic -/

/-- `URL_SAFE_NO_PAD`, on UTF-8 texts. -/
structure Base64 where
  encode : String → String
  decode : String → Option String

variable (b64 : Base64)

/-- `cursor::encode(created_at, id)`. -/
def encodeCursor (p : PostRow) : String :=
  b64.encode (lib.toRfc3339 p.createdAt ++ "|" ++ lib.uuidText p.id)

/-- `cursor::decode(s)`. -/
def decodeCursor (s : String) : Option (Int × Uuid) :=
  (b64.decode s).bind fun raw => Feed.parseFollowingCursor lib (some raw)

/-- `ListQ`. -/
structure ListQ where
  authorId : Option Uuid
  tag : Option String
  topic : Option String
  cursor : Option String
  limit : Option Int
  deriving DecidableEq, Repr

/-- `ListResponse`. -/
structure ListResponse where
  items : List PostRow
  nextCursor : Option String

/-- `WHERE status = 'published' AND tags @> ARRAY[$1]`. -/
def Database.taggedPosts (tag : String) : List PostRow :=
  db.posts.filter fun p => p.status = .published ∧ tag ∈ p.tags

/-- `WHERE status = 'published' AND topics @> ARRAY[$1]`. -/
def Database.topicPosts (topic : String) : List PostRow :=
  db.posts.filter fun p => p.status = .published ∧ topic ∈ p.topics

/-- `list_by_author(db, author, limit)`. -/
def Database.listByAuthor (plan : Plan PostRow) (author : Uuid) (limit : Nat) : List PostRow :=
  queryPage PostRow.createdAt PostRow.id plan
    (db.posts.filter fun p => p.authorId = author ∧ p.status = .published) none limit

/-- `list`. -/
def list (plan : Plan PostRow) (q : ListQ) : Except AppError ListResponse :=
  let limit := clampLimit q.limit
  let cursorPair := q.cursor.bind (decodeCursor lib b64)
  match q.tag, q.topic with
  | some tag, _ =>
    let rows := queryPage PostRow.createdAt PostRow.id plan (db.taggedPosts tag) cursorPair limit
    .ok ⟨rows, nextCursor (encodeCursor lib b64) limit rows⟩
  | none, some topic =>
    let rows := queryPage PostRow.createdAt PostRow.id plan (db.topicPosts topic) cursorPair limit
    .ok ⟨rows, nextCursor (encodeCursor lib b64) limit rows⟩
  | none, none =>
    match q.authorId with
    | none => .error (.validation "author_id" "required when no tag or topic filter")
    | some author => .ok ⟨db.listByAuthor plan author limit, none⟩

/-! ### Cursors that are read back -/

/-- The crates read back the text that they write of a time and of an id. -/
structure ReadsBack (lib : Crates) (stamp : Int) (id : Uuid) : Prop where
  rfc3339 : lib.parseFromRfc3339 (lib.toRfc3339 stamp) = some stamp
  /-- RFC 3339 has digits, `-`, `:`, `T`, `.`, `+` and `Z`. -/
  noBar : '|' ∉ (lib.toRfc3339 stamp).toList
  uuid : lib.parseUuid (lib.uuidText id) = some id

variable {lib db b64}

/-- A cursor of both texts is read back. -/
theorem parseFollowingCursor_text {stamp : Int} {id : Uuid} (h : ReadsBack lib stamp id) :
    Feed.parseFollowingCursor lib (some (lib.toRfc3339 stamp ++ "|" ++ lib.uuidText id))
      = some (stamp, id) := by
  have hspan : (lib.toRfc3339 stamp ++ "|" ++ lib.uuidText id).toList.span (· ≠ '|')
      = ((lib.toRfc3339 stamp).toList, '|' :: (lib.uuidText id).toList) := by
    rw [String.toList_append, String.toList_append, List.append_assoc, List.span_eq_takeWhile_dropWhile]
    have hall : ∀ c ∈ (lib.toRfc3339 stamp).toList, decide (c ≠ '|') = true := by
      intro c hc
      rw [decide_eq_true_iff]
      rintro rfl
      exact h.noBar hc
    rw [List.takeWhile_append_of_pos hall, List.dropWhile_append_of_pos hall]
    simp
  unfold Feed.parseFollowingCursor
  simp only [Option.bind_eq_bind, Option.bind_some, hspan, String.ofList_toList, h.rfc3339, h.uuid]

section Keyset

variable {ρ : Type} {stamp : ρ → Int} {id : ρ → Uuid} {rows : List ρ} {n : Nat}
  {encode : ρ → String} {decode : String → Option (Int × Uuid)}

/-- The pages of a query with a next cursor page by the stamp and the id. -/
theorem keyset_queryPage (hread : ∀ r ∈ rows, decode (encode r) = some (stamp r, id r)) :
    Keyset (fun c items next => ∃ plan, items = queryPage stamp id plan rows (c.bind decode) n
      ∧ next = nextCursor encode n items) stamp id n rows encode decode where
  respond_iff c items next := by
    have hleft : rows.filter (fun r => ∀ k ∈ c.bind decode, Below stamp id k r)
        = Lib.leftBy stamp id rows (c.bind decode) := by
      cases c.bind decode with
      | none => simp [Lib.leftBy]
      | some k => simp [Lib.leftBy, Lib.rest]
    rw [Lib.answer_iff_plan, ← hleft]
    exact exists_and_right
  decode_encode := hread

end Keyset

theorem clampLimit_pos (limit : Option Int) : 0 < clampLimit limit := by
  unfold clampLimit
  omega

/-! ### Which rows the lists page through -/

/-- What `list_saved_posts` may answer a cursor. -/
def SavedAnswers (lib : Crates) (db : Database) (userId : Uuid) (limit : Option Int)
    (cursor : Option String) (items : List SavedPostRow) (next : Option String) : Prop :=
  ∃ plan, listSavedPosts lib db plan (some userId) ⟨cursor, limit⟩ = .ok ⟨items, next⟩

/-- The saved posts page by the time of saving and the id of the post. -/
theorem keyset_listSavedPosts {userId : Uuid} {limit : Option Int}
    (hread : ∀ r ∈ db.savedRows userId, ReadsBack lib r.savedAt r.id) :
    Keyset (SavedAnswers lib db userId limit) SavedPostRow.savedAt SavedPostRow.id (clampLimit limit)
      (db.savedRows userId) (savedCursor lib) fun c => Feed.parseFollowingCursor lib (some c) := by
  refine (keyset_queryPage fun r hr => parseFollowingCursor_text (hread r hr)).congr
    fun c items next => exists_congr fun plan => ?_
  have hcursor : (c.bind fun c => Feed.parseFollowingCursor lib (some c))
      = Feed.parseFollowingCursor lib c := by
    cases c with
    | none => rfl
    | some c => rfl
  rw [hcursor]
  show Except.ok _ = Except.ok _ ↔ _
  rw [Except.ok.injEq, SavedResponse.mk.injEq]
  constructor
  · rintro ⟨rfl, rfl⟩
    exact ⟨rfl, rfl⟩
  · rintro ⟨rfl, rfl⟩
    exact ⟨rfl, rfl⟩

/-- What `list` may answer a cursor, for a tag or a topic. -/
def ListAnswers (lib : Crates) (db : Database) (b64 : Base64) (tag topic : Option String)
    (authorId : Option Uuid) (limit : Option Int) (cursor : Option String) (items : List PostRow)
    (next : Option String) : Prop :=
  ∃ plan, list lib db b64 plan ⟨authorId, tag, topic, cursor, limit⟩ = .ok ⟨items, next⟩

/-- The cursors of `list` are read back. -/
theorem decodeCursor_encodeCursor {p : PostRow} (hp : ReadsBack lib p.createdAt p.id)
    (hb64 : b64.decode (encodeCursor lib b64 p)
      = some (lib.toRfc3339 p.createdAt ++ "|" ++ lib.uuidText p.id)) :
    decodeCursor lib b64 (encodeCursor lib b64 p) = some (p.createdAt, p.id) := by
  unfold decodeCursor
  rw [hb64, Option.bind_some, parseFollowingCursor_text hp]

/-- The pages of some of the posts page by the time of creation and the id. -/
private theorem keyset_posts {rows : List PostRow} {n : Nat} (hsub : rows ⊆ db.posts)
    (hb64 : ∀ p ∈ db.posts, b64.decode (encodeCursor lib b64 p)
      = some (lib.toRfc3339 p.createdAt ++ "|" ++ lib.uuidText p.id))
    (hread : ∀ p ∈ db.posts, ReadsBack lib p.createdAt p.id) :
    Keyset (fun c items next => ∃ plan : Plan PostRow,
        let page := queryPage PostRow.createdAt PostRow.id plan rows
          (c.bind (decodeCursor lib b64)) n
        (.ok ⟨page, nextCursor (encodeCursor lib b64) n page⟩ : Except AppError ListResponse)
          = .ok ⟨items, next⟩)
      PostRow.createdAt PostRow.id n rows (encodeCursor lib b64) (decodeCursor lib b64) := by
  refine (keyset_queryPage fun p hp => decodeCursor_encodeCursor (hread p (hsub hp))
    (hb64 p (hsub hp))).congr
    fun c items next => exists_congr fun plan => ?_
  rw [Except.ok.injEq, ListResponse.mk.injEq]
  constructor
  · rintro ⟨rfl, rfl⟩
    exact ⟨rfl, rfl⟩
  · rintro ⟨rfl, rfl⟩
    exact ⟨rfl, rfl⟩

/-- The posts of a tag. -/
theorem keyset_list_tag {tag : String} {topic : Option String} {authorId : Option Uuid}
    {limit : Option Int}
    (hb64 : ∀ p ∈ db.posts, b64.decode (encodeCursor lib b64 p)
      = some (lib.toRfc3339 p.createdAt ++ "|" ++ lib.uuidText p.id))
    (hread : ∀ p ∈ db.posts, ReadsBack lib p.createdAt p.id) :
    Keyset (ListAnswers lib db b64 (some tag) topic authorId limit) PostRow.createdAt PostRow.id
      (clampLimit limit) (db.taggedPosts tag) (encodeCursor lib b64) (decodeCursor lib b64) := by
  have hsub : db.taggedPosts tag ⊆ db.posts := List.filter_sublist.subset
  exact (keyset_posts (n := clampLimit limit) hsub hb64 hread).congr fun _ _ _ => Iff.rfl

/-- The posts of a topic. -/
theorem keyset_list_topic {topic : String} {authorId : Option Uuid} {limit : Option Int}
    (hb64 : ∀ p ∈ db.posts, b64.decode (encodeCursor lib b64 p)
      = some (lib.toRfc3339 p.createdAt ++ "|" ++ lib.uuidText p.id))
    (hread : ∀ p ∈ db.posts, ReadsBack lib p.createdAt p.id) :
    Keyset (ListAnswers lib db b64 none (some topic) authorId limit) PostRow.createdAt PostRow.id
      (clampLimit limit) (db.topicPosts topic) (encodeCursor lib b64) (decodeCursor lib b64) := by
  have hsub : db.topicPosts topic ⊆ db.posts := List.filter_sublist.subset
  exact (keyset_posts (n := clampLimit limit) hsub hb64 hread).congr fun _ _ _ => Iff.rfl

/-! ### No post twice in a list -/

/-- A join that finds at most one row for each key keeps the keys apart. -/
private theorem map_flatMap_sublist {α β κ : Type} {l : List α} {f : α → List β} {g : β → κ}
    {h : α → κ} (hf : ∀ a ∈ l, ((f a).map g).Sublist [h a]) :
    ((l.flatMap f).map g).Sublist (l.map h) := by
  induction l with
  | nil => exact List.Sublist.refl _
  | cons a l ih =>
    rw [List.flatMap_cons, List.map_append, List.map_cons]
    exact (hf a List.mem_cons_self).append (ih fun b hb => hf b (List.mem_cons_of_mem a hb))

/-- A key selects at most one row. -/
private theorem map_filter_key_sublist {α : Type} {key : α → Uuid} {l : List α}
    (hkey : (l.map key).Nodup) (k : Uuid) :
    ((l.filter fun a => key a = k).map key).Sublist [k] := by
  have hmap : (l.filter fun a => key a = k).map key = (l.map key).filter (· == k) := by
    rw [List.filter_map]
    congr 1
  rw [hmap, List.filter_beq]
  have hcount : (l.map key).count k ≤ 1 := List.nodup_iff_count_le_one.mp hkey k
  exact (List.replicate_sublist_replicate k).mpr hcount

/-- A user has saved a post once. -/
theorem nodup_savedRows (userId : Uuid) : ((db.savedRows userId).map SavedPostRow.id).Nodup := by
  have hsub : ((db.savedRows userId).map SavedPostRow.id).Sublist
      ((db.interactions.filter fun i => i.userId = userId ∧ i.type = .save).map
        Interaction.postId) := by
    refine map_flatMap_sublist fun i _ => ?_
    refine (map_flatMap_sublist (h := PostRow.id) fun p _ => ?_).trans
      (map_filter_key_sublist db.postsKey i.postId)
    rw [List.map_map]
    have hconst : (db.users.filter fun u => u.id = p.authorId).map
          (SavedPostRow.id ∘ fun u => ⟨p, u.username, u.displayName, u.avatarUrl, i.createdAt⟩)
        = List.replicate (db.users.filter fun u => u.id = p.authorId).length p.id := by
      show (db.users.filter fun u => u.id = p.authorId).map (fun _ => p.id) = _
      exact List.map_const'
    rw [hconst]
    have hlength := (map_filter_key_sublist db.usersKey p.authorId).length_le
    rw [List.length_map] at hlength
    exact (List.replicate_sublist_replicate p.id).mpr hlength
  refine List.Nodup.sublist hsub ?_
  have hkey := db.interactionsKey.sublist
    ((List.filter_sublist (p := fun i => i.userId = userId ∧ i.type = .save)).map _)
  rw [List.nodup_map_iff_inj_on hkey.of_map]
  intro i hi j hj hpost
  have hi' := (List.mem_filter.mp hi).2
  have hj' := (List.mem_filter.mp hj).2
  rw [decide_eq_true_iff] at hi' hj'
  exact List.inj_on_of_nodup_map hkey hi hj (by rw [hi'.1, hi'.2, hj'.1, hj'.2, hpost])

end Oecophylla.Listing
