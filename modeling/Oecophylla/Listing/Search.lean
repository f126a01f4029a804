import Oecophylla.Interaction.Comments
import Oecophylla.Lib.RankedPaging
import Oecophylla.Listing.Queues

namespace Oecophylla.Listing.Search

open Feed (Uuid Crates PostStatus)
open Interaction.Comments (trim)
open Lib (Answer Below CompleteByRank Cuts Plan RankedKeyset behind latestFirst stableSort)
open Queues (CursorReadsBack decode encode position)

/-!
# The search for posts (`content-service`)

The posts that match a query, the best ones first.  The rows of a page are ordered by rank and then
by time; the cursor of a page is the time and the id of its last row.

* `search` — the handler, with `searchPosts`, its query;
* `rankedKeyset_search` — it pages in one order and cuts in another;
* `search_complete_iff` — for which posts a reader of the search sees every match exactly once.
-/

/-! ### The handler -/

/-- What the search vector of a post makes of a query: `search_vector @@ plainto_tsquery('english', q)`
    and `ts_rank(search_vector, plainto_tsquery('english', q))`.  The vector is generated from the
    content and the tags; a rank is a `float4`, as a multiple of `2 ^ -149`. -/
structure TextSearch where
  isMatch : (query content : String) → (tags : List String) → Bool
  tsRank : (query content : String) → (tags : List String) → Int

/-- `SearchPostRow`. -/
structure SearchPostRow where
  id : Uuid
  authorId : Uuid
  content : String
  tags : List String
  topics : List String
  status : PostStatus
  viewCount : Int
  createdAt : Int
  rank : Int
  deriving DecidableEq, Repr

/-- `SearchQ`. -/
structure SearchQ where
  q : Option String
  type : Option String
  cursor : Option String
  limit : Option Int
  deriving DecidableEq, Repr

/-- `SearchResponse`. -/
structure SearchResponse where
  items : List SearchPostRow
  nextCursor : Option String
  deriving DecidableEq, Repr

variable (lib : Crates) (b64 : Base64) (fts : TextSearch) (db : Database)

/-- The columns of a post, and its rank. -/
def row (query : String) (p : PostRow) : SearchPostRow where
  id := p.id
  authorId := p.authorId
  content := p.content
  tags := p.tags
  topics := p.topics
  status := p.status
  viewCount := p.viewCount
  createdAt := p.createdAt
  rank := fts.tsRank query p.content p.tags

/-- `WHERE search_vector @@ plainto_tsquery('english', $1) AND status = 'published'`. -/
def matchingPosts (query : String) : List SearchPostRow :=
  (db.posts.filter fun p => fts.isMatch query p.content p.tags = true ∧ p.status = .published).map
    (row fts query)

/-- `ORDER BY rank DESC, created_at DESC`. -/
def byRank (r : SearchPostRow) : Lex (Int × Int) := toLex (r.rank, r.createdAt)

/-- `search_posts(db, query, limit, cursor_created_at, cursor_id)`; the first page has no cursor. -/
def searchPosts (plan : Plan SearchPostRow) (query : String) (limit : Nat)
    (cursor : Option (Int × Uuid)) : List SearchPostRow :=
  (stableSort (latestFirst byRank) (plan.arrange ((matchingPosts fts db query).filter fun r =>
    ∀ c ∈ cursor, Below SearchPostRow.createdAt SearchPostRow.id c r))).take limit

/-- What the handler searches for: a query of two bytes or more, among posts. -/
def searchedFor (q type : Option String) : Option String :=
  match q with
  | none => none
  | some q =>
    if 2 ≤ (trim q).utf8ByteSize then
      if type.getD "post" ≠ "post" then none else some (trim q)
    else none

/-- `search`. -/
def search (plan : Plan SearchPostRow) (q : SearchQ) : SearchResponse :=
  match searchedFor q.q q.type with
  | none => ⟨[], none⟩
  | some query =>
    let limit := clampLimit q.limit
    let cursorPair := q.cursor.bind (decode lib b64)
    let rows := searchPosts fts db plan query limit cursorPair
    ⟨rows, nextCursor (fun r => encode lib b64 r.createdAt r.id) limit rows⟩

/-- The posts that a request is about. -/
def searchedPosts (q type : Option String) : List SearchPostRow :=
  match searchedFor q type with
  | none => []
  | some query => matchingPosts fts db query

/-- What `search` may answer a cursor. -/
def SearchAnswers (q type : Option String) (limit : Option Int) (cursor : Option String)
    (items : List SearchPostRow) (next : Option String) : Prop :=
  ∃ plan, search lib b64 fts db plan ⟨q, type, cursor, limit⟩ = ⟨items, next⟩

variable {lib b64 fts db} {q type : Option String} {limit : Option Int}

/-- Where a row stands in time, with its id. -/
abbrev byTime : SearchPostRow → Lex (Int × Uuid) :=
  position SearchPostRow.createdAt SearchPostRow.id

/-! ### How it pages -/

/-- Nothing is searched for: one empty page. -/
private theorem answer_nil {n : Nat} {items : List SearchPostRow} :
    Answer byRank n [] items ↔ items = [] := by
  refine ⟨?_, ?_⟩
  · rintro ⟨l, hperm, -, rfl⟩
    rw [List.perm_nil.mp hperm, List.take_nil]
  · rintro rfl
    exact ⟨[], .refl _, .nil, List.take_nil.symm⟩

/-- The matches of a query are found again by their ids. -/
theorem nodup_searchedPosts (fts : TextSearch) (db : Database) (q type : Option String) :
    ((searchedPosts fts db q type).map byTime).Nodup := by
  unfold searchedPosts
  cases searchedFor q type with
  | none => exact List.nodup_nil
  | some query =>
    have hids : ((matchingPosts fts db query).map SearchPostRow.id).Nodup := by
      unfold matchingPosts
      rw [List.map_map]
      exact db.postsKey.sublist (List.filter_sublist.map _)
    show ((matchingPosts fts db query).map byTime).Nodup
    rw [List.nodup_map_iff_inj_on hids.of_map]
    intro a ha b hb heq
    have hid : a.id = b.id := congrArg (fun k => (ofLex k).2) heq
    exact List.inj_on_of_nodup_map hids ha hb hid

/-- **The search** orders by rank and time, and cuts by time and id. -/
theorem rankedKeyset_search
    (hread : ∀ p ∈ db.posts, CursorReadsBack lib b64 p.createdAt p.id) :
    RankedKeyset (SearchAnswers lib b64 fts db q type limit) byRank byTime (clampLimit limit)
      (searchedPosts fts db q type) (fun r => encode lib b64 r.createdAt r.id)
      fun s => (decode lib b64 s).map toLex := by
  have hpos := clampLimit_pos limit
  refine ⟨fun c items next => ?_, fun r hr => ?_⟩
  · unfold SearchAnswers search searchedPosts
    cases hquery : searchedFor q type with
    | none =>
      have hnil : behind byTime ([] : List SearchPostRow) (c.bind fun s => (decode lib b64 s).map toLex)
          = [] := rfl
      simp only [SearchResponse.mk.injEq, hnil, answer_nil]
      refine ⟨?_, ?_⟩
      · rintro ⟨-, rfl, rfl⟩
        exact ⟨rfl, (if_neg hpos.ne).symm⟩
      · rintro ⟨rfl, rfl⟩
        exact ⟨⟨id, fun _ => .refl _⟩, rfl, (if_neg hpos.ne).symm⟩
    | some query =>
      have hleft : (matchingPosts fts db query).filter (fun r => ∀ k ∈ c.bind (decode lib b64),
          Below SearchPostRow.createdAt SearchPostRow.id k r)
            = behind byTime (matchingPosts fts db query)
              (c.bind fun s => (decode lib b64 s).map toLex) := by
        rw [Queues.filter_below_eq, Option.map_bind]
        rfl
      simp only [SearchResponse.mk.injEq, searchPosts, hleft]
      rw [Lib.answer_iff_plan, ← exists_and_right]
      refine exists_congr fun plan => ⟨?_, ?_⟩
      · rintro ⟨rfl, rfl⟩
        exact ⟨rfl, rfl⟩
      · rintro ⟨rfl, rfl⟩
        exact ⟨rfl, rfl⟩
  · unfold searchedPosts at hr
    cases hquery : searchedFor q type with
    | none =>
      rw [hquery] at hr
      cases hr
    | some query =>
      rw [hquery] at hr
      obtain ⟨p, hp, rfl⟩ := List.mem_map.mp hr
      show (decode lib b64 (encode lib b64 p.createdAt p.id)).map toLex = _
      rw [Queues.decode_encode (hread p (List.mem_of_mem_filter hp))]
      rfl

/-- **When the search is complete.**  A reader who follows the cursors of the search sees every
    matching post exactly once, in the order of the ranks, and comes to an end, if and only if at the
    end of each full page there is a match that separates the others alike by rank and time, and by
    time and id. -/
theorem search_complete_iff (lib : Crates) (b64 : Base64) (fts : TextSearch) (db : Database)
    (q type : Option String) (limit : Option Int)
    (hread : ∀ p ∈ db.posts, CursorReadsBack lib b64 p.createdAt p.id) :
    CompleteByRank (SearchAnswers lib b64 fts db q type limit) SearchPostRow.rank
        (searchedPosts fts db q type)
      ↔ Cuts byRank byTime (clampLimit limit) (searchedPosts fts db q type) := by
  refine (rankedKeyset_search hread).completeByRank_iff (clampLimit_pos limit)
    (nodup_searchedPosts fts db q type) fun a b hab => ?_
  rcases Prod.Lex.toLex_le_toLex.mp hab with hlt | ⟨heq, -⟩
  · exact hlt.le
  · exact heq.le

/-! ### Two matches -/

private def searchTimes : List (Int × String) :=
  [(1767225600000000, "2026-01-01T00:00:00+00:00"), (1767312000000000, "2026-01-02T00:00:00+00:00")]

private def searchIds : List (Uuid × String) :=
  [(1, "00000000-0000-0000-0000-000000000001"), (2, "00000000-0000-0000-0000-000000000002")]

private def searchCursors : List (String × String) :=
  [("2026-01-01T00:00:00+00:00|00000000-0000-0000-0000-000000000001",
      "MjAyNi0wMS0wMVQwMDowMDowMCswMDowMHwwMDAwMDAwMC0wMDAwLTAwMDAtMDAwMC0wMDAwMDAwMDAwMDE"),
    ("2026-01-01T00:00:00+00:00|00000000-0000-0000-0000-000000000002",
      "MjAyNi0wMS0wMVQwMDowMDowMCswMDowMHwwMDAwMDAwMC0wMDAwLTAwMDAtMDAwMC0wMDAwMDAwMDAwMDI"),
    ("2026-01-02T00:00:00+00:00|00000000-0000-0000-0000-000000000001",
      "MjAyNi0wMS0wMlQwMDowMDowMCswMDowMHwwMDAwMDAwMC0wMDAwLTAwMDAtMDAwMC0wMDAwMDAwMDAwMDE"),
    ("2026-01-02T00:00:00+00:00|00000000-0000-0000-0000-000000000002",
      "MjAyNi0wMS0wMlQwMDowMDowMCswMDowMHwwMDAwMDAwMC0wMDAwLTAwMDAtMDAwMC0wMDAwMDAwMDAwMDI")]

private def searchCrates : Crates where
  parseUuid s := (searchIds.find? fun e => e.2 = s).map Prod.fst
  parseFromRfc3339 s := (searchTimes.find? fun e => e.2 = s).map Prod.fst
  uuidText id := (searchIds.lookup id).getD ""
  toRfc3339 t := (searchTimes.lookup t).getD ""

private def searchBase64 : Base64 where
  encode s := (searchCursors.lookup s).getD ""
  decode s := (searchCursors.find? fun e => e.2 = s).map Prod.fst

private def leafSearch : TextSearch where
  isMatch query content _ := query = "leaf" ∧ (content = "leaf" ∨ content = "leaf leaf")
  tsRank _ content _ := if content = "leaf leaf" then 2 ^ 145 else 2 ^ 144

private def matchingPost (id : Uuid) (content : String) (createdAt : Int) : PostRow where
  id := id
  authorId := 9
  content := content
  mediaUrls := []
  tags := []
  topics := []
  safetyScore := 1.0
  status := .published
  viewCount := 0
  likeCount := 0
  commentCount := 0
  saveCount := 0
  shareCount := 0
  createdAt := createdAt
  updatedAt := createdAt

private theorem nodup_matches : [1, 2].Nodup := by decide

/-- Post 1 matches better than post 2. -/
private def twoMatches (t₁ t₂ : Int) : Database where
  users := []
  posts := [matchingPost 1 "leaf leaf" t₁, matchingPost 2 "leaf" t₂]
  interactions := []
  usersKey := List.nodup_nil
  postsKey := nodup_matches
  interactionsKey := List.nodup_nil

private theorem searchReads {t₁ t₂ : Int}
    (h₁ : CursorReadsBack searchCrates searchBase64 t₁ 1)
    (h₂ : CursorReadsBack searchCrates searchBase64 t₂ 2) :
    ∀ p ∈ (twoMatches t₁ t₂).posts, CursorReadsBack searchCrates searchBase64 p.createdAt p.id := by
  intro p hp
  rcases List.mem_pair.mp hp with rfl | rfl
  · exact h₁
  · exact h₂

/-- The better match is the newer one: pages of one post show both. -/
theorem complete_better_newer :
    CompleteByRank (SearchAnswers searchCrates searchBase64 leafSearch
        (twoMatches 1767312000000000 1767225600000000) (some " leaf ") none (some 1))
      SearchPostRow.rank
      (searchedPosts leafSearch (twoMatches 1767312000000000 1767225600000000) (some " leaf ") none) := by
  refine (search_complete_iff searchCrates searchBase64 leafSearch _ (some " leaf ") none (some 1)
    (searchReads ⟨⟨by decide, by decide, by decide⟩, by decide⟩
      ⟨⟨by decide, by decide, by decide⟩, by decide⟩)).mpr ?_
  intro page hpage
  have hlength : (page + 1) * 1 ≤ 2 := hpage
  obtain rfl | rfl : page = 0 ∨ page = 1 := by omega
  · decide
  · decide

/-- The better match is the older one.  A page of one post shows it, and its cursor leaves only
    older posts: the other match is on no page. -/
theorem newer_match_lost :
    Lib.Follow (SearchAnswers searchCrates searchBase64 leafSearch
        (twoMatches 1767225600000000 1767312000000000) (some "leaf") none (some 1)) none
        [[row leafSearch "leaf" (matchingPost 1 "leaf leaf" 1767225600000000)], []]
      ∧ (row leafSearch "leaf" (matchingPost 2 "leaf" 1767312000000000)
        ∈ searchedPosts leafSearch (twoMatches 1767225600000000 1767312000000000) (some "leaf") none)
      ∧ ¬ CompleteByRank (SearchAnswers searchCrates searchBase64 leafSearch
          (twoMatches 1767225600000000 1767312000000000) (some "leaf") none (some 1))
        SearchPostRow.rank
        (searchedPosts leafSearch (twoMatches 1767225600000000 1767312000000000) (some "leaf") none) := by
  have hfollow : Lib.Follow (SearchAnswers searchCrates searchBase64 leafSearch
      (twoMatches 1767225600000000 1767312000000000) (some "leaf") none (some 1)) none
      [[row leafSearch "leaf" (matchingPost 1 "leaf leaf" 1767225600000000)], []] := by
    let plan : Plan SearchPostRow := ⟨id, fun _ => .refl _⟩
    have hfirst : SearchAnswers searchCrates searchBase64 leafSearch
        (twoMatches 1767225600000000 1767312000000000) (some "leaf") none (some 1) none
        [row leafSearch "leaf" (matchingPost 1 "leaf leaf" 1767225600000000)]
        (some "MjAyNi0wMS0wMVQwMDowMDowMCswMDowMHwwMDAwMDAwMC0wMDAwLTAwMDAtMDAwMC0wMDAwMDAwMDAwMDE") :=
      ⟨plan, by decide⟩
    exact .next hfirst (.last ⟨plan, by decide⟩)
  refine ⟨hfollow, by decide, fun h => ?_⟩
  have hlength := (h.perm _ hfollow).length_eq
  exact absurd hlength (by decide)

end Oecophylla.Listing.Search
