import Oecophylla.Content.Posts
import Oecophylla.Lib.OrderedDict
import Mathlib.Algebra.BigOperators.Group.List.Basic
import Mathlib.Algebra.Order.BigOperators.Group.List
import Mathlib.Algebra.Order.Field.Basic
import Mathlib.Algebra.Order.Field.Rat
import Mathlib.Tactic.Linarith
import Mathlib.Tactic.NormNum
import Mathlib.Tactic.Ring

namespace Oecophylla.Recommendation.Relevance

open Content (Post CreatePostReq UpdatePostInput createPost updatePost)
open Lib (OrderedDict)

/-!
# The relevance of topics — `recommendation_api/app/ranking.py`

The weights of the listed topics are added up, and divided by those of the whole vector; positive
and negative weights separately.  `create` of content-service admits any list of topics.

* `relevance` — the relevance of a list of topics;
* `relevance_eq_sum` — it is the sum of the parts of the topics, as often as they are listed;
* `relevance_bounds` — distinct topics have a relevance between `-1` and `1`;
* `setLike_iff` — when the relevance is bounded and repetitions do not count.

Weights are numbers of an ordered field.
-/

section

variable {K : Type*} [Field K] [LinearOrder K]

/-- `sum(max(value, 0.0) for value in user_vec.values())`. -/
def positiveTotal (userVec : OrderedDict String K) : K := (userVec.map fun e => max e.2 0).sum

/-- `sum(max(-value, 0.0) for value in user_vec.values())`. -/
def negativeTotal (userVec : OrderedDict String K) : K := (userVec.map fun e => max (-e.2) 0).sum

/-- `user_vec.get(topic, 0.0)`. -/
def weight (userVec : OrderedDict String K) (topic : String) : K := (userVec.get topic).getD 0

/-- `relevance(user_vec, post_topics)`. -/
def relevance (userVec : OrderedDict String K) (postTopics : List String) : K :=
  let topics := postTopics.filter fun t => t ≠ ""
  if userVec.isEmpty ∨ topics.isEmpty then 0
  else
    let positive := if 0 < positiveTotal userVec then
      (topics.map fun t => max (weight userVec t) 0).sum / positiveTotal userVec else 0
    let negative := if 0 < negativeTotal userVec then
      (topics.map fun t => max (-weight userVec t) 0).sum / negativeTotal userVec else 0
    positive - negative

/-- A post that `create` or `update` admits. -/
inductive Admitted : Post → Prop
  | create {body : CreatePostReq} {post : Post} (h : createPost body = .ok post) : Admitted post
  | update {old : Post} (admitted : Admitted old) {body : UpdatePostInput} {post : Post}
      (h : updatePost old body = .ok post) : Admitted post

/-- The relevance of a post is bounded, and repeating one of its topics does not change it. -/
structure SetLike (userVec : OrderedDict String K) (post : Post) : Prop where
  lower : -1 ≤ relevance userVec post.topics
  upper : relevance userVec post.topics ≤ 1
  repeated : ∀ post', Admitted post' →
    (∃ topic ∈ post.topics, post'.topics.Perm (topic :: post.topics)) →
      relevance userVec post'.topics = relevance userVec post.topics

/-- Any list of topics is admitted. -/
theorem exists_admitted (topics : List String) : ∃ post, Admitted post ∧ post.topics = topics := by
  have htrim : Interaction.Comments.trim "a" = "a" := by decide
  have hlength : "a".length ≤ 4000 := by decide
  have hcreate : createPost ⟨"a", [], [], topics⟩ = .ok ⟨"a", [], [], topics⟩ := by
    unfold createPost
    simp [htrim, hlength]
  exact ⟨_, .create hcreate, rfl⟩

/-! ### The parts of the topics -/

/-- What a topic adds to the relevance. -/
def part (userVec : OrderedDict String K) (topic : String) : K :=
  (if 0 < positiveTotal userVec then max (weight userVec topic) 0 / positiveTotal userVec else 0)
    - if 0 < negativeTotal userVec then max (-weight userVec topic) 0 / negativeTotal userVec else 0

variable {userVec : OrderedDict String K}

/-- The parts of some topics. -/
theorem sum_map_part (topics : List String) :
    (topics.map (part userVec)).sum
      = (if 0 < positiveTotal userVec then
          (topics.map fun t => max (weight userVec t) 0).sum / positiveTotal userVec else 0)
        - if 0 < negativeTotal userVec then
            (topics.map fun t => max (-weight userVec t) 0).sum / negativeTotal userVec else 0 := by
  induction topics with
  | nil => simp
  | cons topic topics ih =>
    rw [List.map_cons, List.sum_cons, ih]
    simp only [List.map_cons, List.sum_cons]
    unfold part
    split_ifs <;> ring

/-- **The relevance is a sum** over the topics that are listed. -/
theorem relevance_eq_sum (postTopics : List String) :
    relevance userVec postTopics
      = ((postTopics.filter fun t => t ≠ "").map (part userVec)).sum := by
  unfold relevance
  dsimp only
  rw [sum_map_part]
  split
  · next hempty =>
    rcases hempty with hvec | htopics
    · obtain rfl : userVec = [] := List.isEmpty_iff.mp hvec
      simp [positiveTotal, negativeTotal]
    · rw [List.isEmpty_iff.mp htopics]
      simp
  · rfl

theorem part_of_weight {topic : String} (h : weight userVec topic = 0) :
    part userVec topic = 0 := by
  unfold part
  rw [h]
  simp

/-- Repeating a topic adds its part once more. -/
theorem relevance_of_perm {topic : String} {topics topics' : List String}
    (hperm : topics'.Perm (topic :: topics)) (hne : topic ≠ "") :
    relevance userVec topics' = part userVec topic + relevance userVec topics := by
  have hsum := ((hperm.filter fun t => t ≠ "").map (part userVec)).sum_eq
  rw [relevance_eq_sum, relevance_eq_sum, hsum, List.filter_cons_of_pos (by simpa using hne),
    List.map_cons, List.sum_cons]

/-- The empty topic does not count. -/
theorem relevance_of_perm_empty {topics topics' : List String}
    (hperm : topics'.Perm ("" :: topics)) :
    relevance userVec topics' = relevance userVec topics := by
  have hsum := ((hperm.filter fun t => t ≠ "").map (part userVec)).sum_eq
  rw [relevance_eq_sum, relevance_eq_sum, hsum, List.filter_cons_of_neg (by simp)]

section Order

variable [IsStrictOrderedRing K]

omit [IsStrictOrderedRing K] in
/-- An amount that only one of some distinct topics gets. -/
private theorem sum_map_ite_le {topics : List String} (hnodup : topics.Nodup) (k : String) {c : K}
    (hc : 0 ≤ c) : (topics.map fun t => if t = k then c else 0).sum ≤ c := by
  induction topics with
  | nil => simpa using hc
  | cons t topics ih =>
    obtain ⟨ht, hnodup⟩ := List.nodup_cons.mp hnodup
    rw [List.map_cons, List.sum_cons]
    split
    · next heq =>
      -- the others are different
      have hzero : (topics.map fun t => if t = k then c else 0).sum = 0 := by
        refine List.sum_eq_zero fun x hx => ?_
        obtain ⟨s, hs, rfl⟩ := List.mem_map.mp hx
        have hne : s ≠ k := fun h => ht (by rwa [heq, ← h])
        exact if_neg hne
      rw [hzero, add_zero]
    · rw [zero_add]
      exact ih hnodup

/-- Distinct topics have at most what the whole vector has. -/
theorem sum_weights_le (f : K → K) (hf : ∀ x, 0 ≤ f x) (hzero : f 0 = 0)
    (userVec : OrderedDict String K) {topics : List String} (hnodup : topics.Nodup) :
    (topics.map fun t => f (weight userVec t)).sum ≤ (userVec.map fun e => f e.2).sum := by
  induction userVec with
  | nil =>
    have hnone : (fun t => f (weight ([] : OrderedDict String K) t)) = fun _ => 0 := by
      ext t
      simpa [weight] using hzero
    rw [hnone]
    simp
  | cons e d ih =>
    have hle : ∀ t ∈ topics, f (weight (e :: d) t)
        ≤ (if t = e.1 then f e.2 else 0) + f (weight d t) := by
      intro t _
      unfold weight
      rw [OrderedDict.get_cons]
      split
      · exact le_add_of_nonneg_right (hf _)
      · rw [zero_add]
    -- the first entry is that of at most one of the topics
    refine (List.sum_le_sum hle).trans ?_
    rw [List.sum_map_add, List.map_cons, List.sum_cons]
    exact add_le_add (sum_map_ite_le hnodup e.1 (hf e.2)) ih

/-- A weight is in the total. -/
theorem le_total (f : K → K) (hf : ∀ x, 0 ≤ f x) {topic : String}
    (hweight : weight userVec topic ≠ 0) :
    f (weight userVec topic) ≤ (userVec.map fun e => f e.2).sum := by
  unfold weight at *
  cases hget : userVec.get topic with
  | none => simp [hget] at hweight
  | some x =>
    have hmem := List.mem_map_of_mem (f := fun e : String × K => f e.2)
      (OrderedDict.mem_of_get hget)
    refine List.single_le_sum (fun y hy => ?_) _ hmem
    obtain ⟨e, -, rfl⟩ := List.mem_map.mp hy
    exact hf e.2

/-- **A topic has a part** exactly when it has a weight. -/
theorem part_eq_zero_iff {topic : String} :
    part userVec topic = 0 ↔ weight userVec topic = 0 := by
  refine ⟨fun hpart => ?_, part_of_weight⟩
  by_contra hweight
  have hpositive := le_total (fun x => max x 0) (fun x => le_max_right x 0) hweight
  have hnegative := le_total (fun x => max (-x) 0) (fun x => le_max_right (-x) 0) hweight
  unfold part at hpart
  -- only the part of its sign is there, and the total of that sign is positive
  rcases lt_or_gt_of_ne hweight with hneg | hpos
  · have hmax : max (weight userVec topic) 0 = 0 := max_eq_right hneg.le
    have hmax' : max (-weight userVec topic) 0 = -weight userVec topic :=
      max_eq_left (by linarith)
    have htotal : 0 < negativeTotal userVec := by
      rw [hmax'] at hnegative
      unfold negativeTotal
      linarith
    rw [hmax, hmax', if_pos htotal, zero_div, ite_self, zero_sub, neg_eq_zero] at hpart
    have hquotient : 0 < -weight userVec topic / negativeTotal userVec :=
      div_pos (by linarith) htotal
    linarith
  · have hmax : max (weight userVec topic) 0 = weight userVec topic := max_eq_left hpos.le
    have hmax' : max (-weight userVec topic) 0 = 0 := max_eq_right (by linarith)
    have htotal : 0 < positiveTotal userVec := by
      rw [hmax] at hpositive
      unfold positiveTotal
      linarith
    rw [hmax, hmax', if_pos htotal, zero_div, ite_self, sub_zero] at hpart
    have hquotient : 0 < weight userVec topic / positiveTotal userVec := div_pos hpos htotal
    linarith

/-- A part of the total is between zero and one. -/
private theorem share_bounds {x total : K} (hx : 0 ≤ x) (hle : x ≤ total) :
    0 ≤ (if 0 < total then x / total else 0) ∧ (if 0 < total then x / total else 0) ≤ 1 := by
  split
  · next hpos => exact ⟨div_nonneg hx hpos.le, (div_le_one hpos).mpr hle⟩
  · exact ⟨le_refl 0, zero_le_one⟩

/-- **Distinct topics have a bounded relevance.** -/
theorem relevance_bounds {topics : List String}
    (hnodup : (topics.filter fun t => t ≠ "").Nodup) :
    -1 ≤ relevance userVec topics ∧ relevance userVec topics ≤ 1 := by
  have hnonneg : ∀ f : K → K, (∀ x, 0 ≤ f x) →
      0 ≤ ((topics.filter fun t => t ≠ "").map fun t => f (weight userVec t)).sum := by
    intro f hf
    refine List.sum_nonneg fun x hx => ?_
    obtain ⟨t, -, rfl⟩ := List.mem_map.mp hx
    exact hf _
  obtain ⟨hpositive, hpositive'⟩ := share_bounds
    (hnonneg (fun x => max x 0) fun x => le_max_right x 0)
    (sum_weights_le (fun x => max x 0) (fun x => le_max_right x 0) (max_self 0) userVec hnodup)
  obtain ⟨hnegative, hnegative'⟩ := share_bounds
    (hnonneg (fun x => max (-x) 0) fun x => le_max_right (-x) 0)
    (sum_weights_le (fun x => max (-x) 0) (fun x => le_max_right (-x) 0) (by simp) userVec hnodup)
  rw [relevance_eq_sum, sum_map_part]
  unfold positiveTotal negativeTotal
  constructor <;> linarith

/-- **When repetitions do not count.**  The relevance of a post is bounded and does not change when
    one of its topics is repeated exactly when none of its non-empty topics has a weight; of a post
    whose non-empty topics are distinct it is bounded in any case. -/
theorem setLike_iff (userVec : OrderedDict String K) (post : Post) :
    (SetLike userVec post ↔ ∀ topic ∈ post.topics, topic ≠ "" → weight userVec topic = 0)
      ∧ ((post.topics.filter fun t => t ≠ "").Nodup →
        -1 ≤ relevance userVec post.topics ∧ relevance userVec post.topics ≤ 1) := by
  refine ⟨⟨fun hset topic hmem hne => ?_, fun hweightless => ?_⟩, relevance_bounds⟩
  · obtain ⟨post', hadmitted, htopics⟩ := exists_admitted (topic :: post.topics)
    have hrepeated := hset.repeated post' hadmitted ⟨topic, hmem, .of_eq htopics⟩
    rw [relevance_of_perm (.of_eq htopics) hne] at hrepeated
    exact part_eq_zero_iff.mp (by linarith)
  · have hzero : relevance userVec post.topics = 0 := by
      rw [relevance_eq_sum]
      refine List.sum_eq_zero fun x hx => ?_
      obtain ⟨t, ht, rfl⟩ := List.mem_map.mp hx
      obtain ⟨hmem, hne⟩ := List.mem_filter.mp ht
      exact part_of_weight (hweightless t hmem (by simpa using hne))
    refine ⟨by rw [hzero]; linarith [zero_lt_one (α := K)], by rw [hzero]; exact zero_le_one, ?_⟩
    rintro post' - ⟨topic, hmem, hperm⟩
    by_cases hne : topic = ""
    · subst hne
      exact relevance_of_perm_empty hperm
    · rw [relevance_of_perm hperm hne, part_of_weight (hweightless topic hmem hne), zero_add]

end Order

end

/-- The relevance of a post with one topic, for a user who likes it, is bounded; but the topic could
    be repeated. -/
theorem setLike_iff_ai :
    ¬ SetLike [("ai", (1 : ℚ))] ⟨"a", [], [], ["ai"]⟩
      ∧ -1 ≤ relevance [("ai", (1 : ℚ))] ["ai"] ∧ relevance [("ai", (1 : ℚ))] ["ai"] ≤ 1 := by
  obtain ⟨hset, hbounds⟩ := setLike_iff [("ai", (1 : ℚ))] ⟨"a", [], [], ["ai"]⟩
  refine ⟨fun h => ?_, hbounds (by decide)⟩
  have hweight := hset.mp h "ai" (by simp) (by decide)
  revert hweight
  decide

/-- **Counterexample.**  A post that lists its only topic twice is admitted, and has the relevance 2
    for a user who likes that topic. -/
theorem repeated_topic_exceeds :
    (∃ post, Admitted post ∧ post.topics = ["ai", "ai"]
        ∧ relevance [("ai", (1 : ℚ))] post.topics = 2)
      ∧ ¬ ∀ (userVec : OrderedDict String ℚ) (post : Post),
        Admitted post → SetLike userVec post := by
  obtain ⟨post, hadmitted, htopics⟩ := exists_admitted ["ai", "ai"]
  have hrelevance : relevance [("ai", (1 : ℚ))] post.topics = 2 := by
    rw [htopics]
    decide +kernel
  refine ⟨⟨post, hadmitted, htopics, hrelevance⟩, fun hall => ?_⟩
  have hupper := (hall [("ai", 1)] post hadmitted).upper
  rw [hrelevance] at hupper
  norm_num at hupper

end Oecophylla.Recommendation.Relevance
