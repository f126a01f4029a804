import Oecophylla.Lib.Greedy
import Oecophylla.Lib.OrderedDict
import Oecophylla.Lib.StableSort
import Oecophylla.Python.Value
import Mathlib.Algebra.Order.Field.Basic
import Mathlib.Algebra.Order.Field.Rat
import Mathlib.Data.List.Dedup
import Mathlib.Tactic.NormNum
import Mathlib.Tactic.Linarith

namespace Oecophylla.Recommendation.Rerank

open Lib (OrderedDict greedy stableSort)
open Python (uuidText)

/-!
# The rerank for diversity — `recommendation_api/app/ranking.py`

The ranked items are selected one by one.  An item is penalized for the author and the topic of
the item selected before it, and for a topic seen already while few topics have been seen.

* `penalty` / `adjusted` — the score of an item, given the items selected before it;
* `diversityRerank` — the selection;
* `diversityRerank_spec` — a greedy selection with bounded regret.

The penalties are of the size `0` to `0.17`, so the order of two items changes only when their
scores are no further apart.
-/

/-- A 128-bit UUID. -/
abbrev Uuid := Nat

/-- `RecommendationItem`; scores are numbers of an ordered field `K`, and the features of an item
    are only ever compared. -/
structure RecommendationItem (K F : Type*) where
  postId : Uuid
  score : K
  source : String
  reason : String
  features : F
  deriving DecidableEq

section

variable {K F : Type*} [Field K] [LinearOrder K]
variable (primaryTopic : OrderedDict String (Option String)) (authorId : OrderedDict String String)

/-- `primary_topic.get(str(item.post_id))`. -/
def topicOf (item : RecommendationItem K F) : Option String :=
  (primaryTopic.get (uuidText item.postId)).join

/-- `author_id.get(str(item.post_id))`. -/
def authorOf (item : RecommendationItem K F) : Option String :=
  authorId.get (uuidText item.postId)

/-- The penalty for the item selected last. -/
def streakPenalty (selected : List (RecommendationItem K F)) (item : RecommendationItem K F) : K :=
  match selected.getLast? with
  | none => 0
  | some last =>
    (if authorOf authorId item = authorOf authorId last then 0.08 else 0)
      + (if topicOf primaryTopic item = topicOf primaryTopic last then 0.05 else 0)

private theorem lawfulBEq_topic : LawfulBEq (Option String) := inferInstance

attribute [local instance] lawfulBEq_topic

/-- The penalty for a topic that has been seen; `seen_topics` is a set. -/
def seenPenalty (selected : List (RecommendationItem K F)) (item : RecommendationItem K F) : K :=
  let seenTopics := (selected.map (topicOf primaryTopic)).dedup
  if topicOf primaryTopic item ∈ seenTopics ∧ seenTopics.length < 3 then 0.04 else 0

/-- `penalty`. -/
def penalty (selected : List (RecommendationItem K F)) (item : RecommendationItem K F) : K :=
  streakPenalty primaryTopic authorId selected item + seenPenalty primaryTopic selected item

/-- `adjusted`. -/
def adjusted (selected : List (RecommendationItem K F)) (item : RecommendationItem K F) : K :=
  item.score - penalty primaryTopic authorId selected item

/-- `sorted(items, key=lambda x: x.score, reverse=True)`, which leaves ties as they are. -/
def byScore (items : List (RecommendationItem K F)) : List (RecommendationItem K F) :=
  stableSort (fun a b => compare b.score a.score) items

/-- `diversity_rerank`. -/
def diversityRerank [DecidableEq F] (items : List (RecommendationItem K F)) (limit : Int) :
    List (RecommendationItem K F) :=
  greedy (adjusted primaryTopic authorId) limit.toNat [] (byScore items)

section Penalties

variable [IsStrictOrderedRing K]

theorem streakPenalty_bounds (selected : List (RecommendationItem K F))
    (item : RecommendationItem K F) :
    0 ≤ streakPenalty primaryTopic authorId selected item
      ∧ streakPenalty primaryTopic authorId selected item ≤ 0.13 := by
  unfold streakPenalty
  cases selected.getLast? with
  | none => norm_num
  | some last =>
    dsimp only
    split_ifs <;> norm_num

theorem seenPenalty_bounds (selected : List (RecommendationItem K F))
    (item : RecommendationItem K F) :
    0 ≤ seenPenalty primaryTopic selected item
      ∧ seenPenalty primaryTopic selected item ≤ 0.04 := by
  unfold seenPenalty
  dsimp only
  split_ifs <;> norm_num

/-- The penalties together. -/
theorem penalty_bounds (selected : List (RecommendationItem K F)) (item : RecommendationItem K F) :
    0 ≤ penalty primaryTopic authorId selected item
      ∧ penalty primaryTopic authorId selected item ≤ 0.17 := by
  obtain ⟨hstreak, hstreak'⟩ :=
    streakPenalty_bounds primaryTopic authorId selected item
  obtain ⟨hseen, hseen'⟩ := seenPenalty_bounds primaryTopic selected item
  unfold penalty
  refine ⟨by linarith, ?_⟩
  norm_num at hstreak' hseen' ⊢
  linarith

end Penalties

variable [DecidableEq F]

/-- The items selected and those passed over are the items. -/
theorem exists_perm_diversityRerank (items : List (RecommendationItem K F)) (limit : Int) :
    ∃ rest, items.Perm (diversityRerank primaryTopic authorId items limit ++ rest)
      ∧ (diversityRerank primaryTopic authorId items limit).length
        = min limit.toNat items.length := by
  obtain ⟨chosen, rest, heq, hperm, hlength⟩ :=
    Lib.exists_greedy_eq (adjusted primaryTopic authorId) limit.toNat [] (byScore items)
  have hresult : diversityRerank primaryTopic authorId items limit = chosen := heq
  rw [hresult]
  refine ⟨rest, (Lib.stableSort_perm _ items).symm.trans hperm, ?_⟩
  rw [hlength]
  unfold byScore
  rw [Lib.length_stableSort]

/-- The adjusted score of the item selected next is the greatest of those that remain. -/
theorem adjusted_le {items before after : List (RecommendationItem K F)} {limit : Int}
    {best item : RecommendationItem K F}
    (heq : diversityRerank primaryTopic authorId items limit = before ++ best :: after)
    (hitem : item ∈ items) (hbefore : item ∉ before) :
    adjusted primaryTopic authorId before item ≤ adjusted primaryTopic authorId before best := by
  have hgreedy : greedy (adjusted primaryTopic authorId) limit.toNat [] (byScore items)
      = [] ++ (before ++ best :: after) := heq
  exact Lib.greedy_choice hgreedy (Lib.mem_stableSort.mpr hitem) hbefore

omit [LinearOrder K] [DecidableEq F] in
/-- Nothing is penalized before an item has been selected. -/
theorem adjusted_nil (item : RecommendationItem K F) :
    adjusted primaryTopic authorId [] item = item.score := by
  simp [adjusted, penalty, streakPenalty, seenPenalty]

/-- **Greedy selection with bounded regret.**  As many distinct items are selected as fit, the
    first of the greatest score; no item that remains exceeds the one selected by more than the
    penalties together; and a smaller limit gives a prefix. -/
theorem diversityRerank_spec [IsStrictOrderedRing K] (items : List (RecommendationItem K F))
    (hids : (items.map RecommendationItem.postId).Nodup) (limit : Int) :
    ((diversityRerank primaryTopic authorId items limit).length : Int)
        = min (max limit 0) items.length
      ∧ ((diversityRerank primaryTopic authorId items limit).map
          RecommendationItem.postId).Nodup
      ∧ (∀ item ∈ diversityRerank primaryTopic authorId items limit, item ∈ items)
      ∧ (∀ best ∈ (diversityRerank primaryTopic authorId items limit).head?,
          ∀ item ∈ items, item.score ≤ best.score)
      ∧ (∀ before best after,
          diversityRerank primaryTopic authorId items limit = before ++ best :: after →
            ∀ item ∈ items, item ∉ before → item.score - 0.17 ≤ best.score)
      ∧ ∀ limit' ≤ limit, diversityRerank primaryTopic authorId items limit'
          <+: diversityRerank primaryTopic authorId items limit := by
  obtain ⟨rest, hperm, hlength⟩ := exists_perm_diversityRerank primaryTopic authorId items limit
  refine ⟨by omega, ?_, ?_, ?_, ?_, ?_⟩
  · -- what is selected and what is not are together the items
    have hnodup := (hperm.map RecommendationItem.postId).nodup hids
    rw [List.map_append] at hnodup
    exact hnodup.of_append_left
  · exact fun item hitem => hperm.mem_iff.mpr (List.mem_append_left rest hitem)
  · intro best hbest item hitem
    obtain ⟨after, heq⟩ := List.head?_eq_some_iff.mp hbest
    have hle : adjusted primaryTopic authorId [] item ≤ adjusted primaryTopic authorId [] best :=
      adjusted_le primaryTopic authorId heq hitem (by simp)
    rwa [adjusted_nil, adjusted_nil] at hle
  · intro before best after heq item hitem hbefore
    -- the item is behind the one selected by its adjusted score
    have hle := adjusted_le primaryTopic authorId heq hitem hbefore
    obtain ⟨_, hpenalty⟩ := penalty_bounds primaryTopic authorId before item
    obtain ⟨hpenalty', _⟩ := penalty_bounds primaryTopic authorId before best
    unfold adjusted at hle
    linarith
  · intro limit' hle
    exact Lib.greedy_isPrefix (by omega) [] (byScore items)

omit [LinearOrder K] [DecidableEq F] in
/-- The penalties look at the ids and scores of the items. -/
theorem adjusted_map {G : Type*} {f : RecommendationItem K F → RecommendationItem K G}
    (hid : ∀ item, (f item).postId = item.postId) (hscore : ∀ item, (f item).score = item.score)
    (selected : List (RecommendationItem K F)) (item : RecommendationItem K F) :
    adjusted primaryTopic authorId (selected.map f) (f item)
      = adjusted primaryTopic authorId selected item := by
  have htopic (x : RecommendationItem K F) : topicOf primaryTopic (f x) = topicOf primaryTopic x := by
    unfold topicOf
    rw [hid]
  have hauthor (x : RecommendationItem K F) : authorOf authorId (f x) = authorOf authorId x := by
    unfold authorOf
    rw [hid]
  have htopics : (selected.map f).map (topicOf primaryTopic) = selected.map (topicOf primaryTopic) := by
    rw [List.map_map]
    exact List.map_congr_left fun x _ => htopic x
  unfold adjusted penalty streakPenalty seenPenalty
  rw [htopics, htopic, hauthor, hscore, List.getLast?_map]
  cases selected.getLast? with
  | none => rfl
  | some last => simp only [Option.map_some, htopic, hauthor]

/-- The rerank looks at the ids and scores of the items, and at nothing else. -/
theorem diversityRerank_map {G : Type*} [DecidableEq G]
    {f : RecommendationItem K F → RecommendationItem K G}
    (hid : ∀ item, (f item).postId = item.postId) (hscore : ∀ item, (f item).score = item.score)
    (items : List (RecommendationItem K F)) (hids : (items.map RecommendationItem.postId).Nodup)
    (limit : Int) :
    diversityRerank primaryTopic authorId (items.map f) limit
      = (diversityRerank primaryTopic authorId items limit).map f := by
  have hsort : byScore (items.map f) = (byScore items).map f := by
    unfold byScore
    rw [Lib.stableSort_map]
    simp only [hscore]
  unfold diversityRerank
  rw [hsort]
  refine Lib.greedy_map f (adjusted_map primaryTopic authorId hid hscore) limit.toNat [] _ ?_
  intro b hb c hc heq
  have hpost : b.postId = c.postId := by rw [← hid b, ← hid c, heq]
  exact List.inj_on_of_nodup_map hids (Lib.mem_stableSort.mp hb) (Lib.mem_stableSort.mp hc) hpost

end

/-- Two items of one author and topic, and a third that is a little behind them. -/
def threeItems : List (RecommendationItem ℚ Unit) :=
  [⟨1, 0.95, "topic", "", ()⟩, ⟨2, 1, "topic", "", ()⟩, ⟨3, 0.9, "topic", "", ()⟩]

/-- Their topics. -/
def threeTopics : OrderedDict String (Option String) :=
  [(uuidText 1, some "ai"), (uuidText 2, some "ai"), (uuidText 3, some "sports")]

/-- Their authors. -/
def threeAuthors : OrderedDict String String :=
  [(uuidText 1, "a"), (uuidText 2, "a"), (uuidText 3, "b")]

/-- The third item passes the one that is ahead of it. -/
theorem diversityRerank_threeItems :
    (diversityRerank threeTopics threeAuthors threeItems 2).map RecommendationItem.postId = [2, 3]
      ∧ ((diversityRerank threeTopics threeAuthors threeItems 2).length : Int)
        = min (max 2 0) threeItems.length :=
  ⟨by decide +kernel,
    (diversityRerank_spec threeTopics threeAuthors threeItems (by decide) 2).1⟩

end Oecophylla.Recommendation.Rerank
