import Oecophylla.Interaction.Toggles
import Oecophylla.Lib.Accumulate
import Oecophylla.Python.Double
import Oecophylla.Worker.Store
import Mathlib.Algebra.BigOperators.Ring.Finset
import Mathlib.Algebra.Order.BigOperators.Group.List

namespace Oecophylla.Recommendation

open Ingestion (Uuid)
open Interaction.Toggles (Method)
open Lib (OrderedDict)
open Worker (Floats Post TopicWeights applyTopicDelta resolvedTopics tenths)

/-!
# Two ways to the v1 preferences — the feature worker and `rebuild_features`

A user likes, saves and shares posts, and takes it back.  `interactions` keeps a row for what was
not taken back, and the feature worker gets an event for every change.  The worker adds the weight
of the event to the topics of the post, one event after the other; `aggregate_topic_weights` adds
the weights of the rows.

* `toggle`, `history` — the rows and the events (`toggle_post`, one request after the other);
* `incremental`, `aggregateTopicWeights` — the two vectors, over any arithmetic on doubles;
* `Approximates` — how far a step may be from the exact one, `fourDecimals` an instance;
* `sum_history` — the events of a history add up to the rows that are left;
* `Matched` — the condition on a post: the worker and the rebuild give it the same topics;
* `rebuild_agrees_iff` — the vectors agree exactly when every post of a row is matched.
-/

/-! ### Toggles -/

/-- The interactions that both paths count. -/
inductive Kind where
  | like
  | save
  | share
  deriving DecidableEq, Repr

/-- `weight_for(type_)`, with the environment variables unset. -/
def Kind.weightFor : Kind → Decimal
  | .like => tenths false 15
  | .save => tenths false 25
  | .share => tenths false 25

/-- `evt`: the event of a change. -/
def featureEvent : Kind → Method → String
  | .like, .post => "liked"
  | .like, .delete => "unliked"
  | .save, .post => "saved"
  | .save, .delete => "unsaved"
  | .share, .post => "shared"
  | .share, .delete => "unshared"

/-- A row of `interactions` of the user. -/
structure Row where
  post : Uuid
  kind : Kind
  deriving DecidableEq, Repr

/-- A request of the user. -/
structure Request where
  row : Row
  method : Method
  deriving DecidableEq, Repr

/-- The rows of the user and the events that were sent, each with its post. -/
structure History where
  rows : List Row
  events : List (Uuid × String)
  deriving DecidableEq

/-- `toggle_post`: the row is inserted or deleted, and if that changed anything an event is sent. -/
def toggle (h : History) (request : Request) : History :=
  let event := (request.row.post, featureEvent request.row.kind request.method)
  match request.method with
  | .post =>
    if request.row ∈ h.rows then h else ⟨h.rows ++ [request.row], h.events ++ [event]⟩
  | .delete =>
    if request.row ∈ h.rows then ⟨h.rows.erase request.row, h.events ++ [event]⟩ else h

/-- All requests, one after the other. -/
def history (requests : List Request) : History := requests.foldl toggle ⟨[], []⟩

/-! ### The two vectors -/

section Vectors

variable {F : Type} (fl : Floats F) (posts : Uuid → Post)

/-- Add a share to every topic. -/
def spread (share : F) (vec : TopicWeights F) (topics : List String) : TopicWeights F :=
  topics.foldl (fun out topic =>
    Object.set out topic (fl.round4 (fl.add ((out.lookup topic).getD fl.zero) share))) vec

/-- The vector of the worker: the events are applied one by one. -/
def incremental (events : List (Uuid × String)) : TopicWeights F :=
  events.foldl (fun vec event =>
    applyTopicDelta fl vec (resolvedTopics (posts event.1)) event.2) []

/-- The topics of a row: the non-empty ones, or `general`. -/
def aggregateTopics (post : Post) : List String :=
  let topics := post.topics.filter fun topic => topic ≠ ""
  if topics = [] then ["general"] else topics

/-- The loop of `aggregate_topic_weights`, over weights and their posts. -/
def aggregateRows (rows : List (F × Post)) : TopicWeights F :=
  rows.foldl (fun out row =>
    let topics := aggregateTopics row.2
    spread fl (fl.div row.1 topics.length) out topics) []

/-- `aggregate_topic_weights(db, user_id)`, for the rows in the order they are read. -/
def aggregateTopicWeights (rows : List Row) : TopicWeights F :=
  aggregateRows fl (rows.map fun row => (fl.ofDecimal row.kind.weightFor, posts row.post))

end Vectors

/-- The topics that the worker spreads an event over. -/
def workerTopics (post : Post) : List String :=
  if resolvedTopics post = [] then ["general"] else resolvedTopics post

/-- **A matched post.**  A post with a topic other than `general` has no empty topic; otherwise the
    worker reads `general` only. -/
def Matched (post : Post) : Prop :=
  if ∃ topic ∈ post.topics, topic ≠ "" ∧ topic ≠ "general" then "" ∉ post.topics
  else ∀ topic ∈ resolvedTopics post, topic = "general"

instance (post : Post) : Decidable (Matched post) := by
  unfold Matched
  infer_instance

/-! ### Arithmetic -/

/-- Exact arithmetic. -/
def exact : Floats ℚ where
  ofDecimal d := (if d.negative then -1 else 1) * d.digits * 10 ^ d.exponent
  add x y := x + y
  div x n := x / n
  round4 := id
  isZero x := x = 0
  isZero_div n _ := by simp

/-- Exact arithmetic, but `round(x, 4)`. -/
def fourDecimals : Floats ℚ :=
  { exact with round4 := fun x => Oecophylla.Python.roundHalfEven (x * 10 ^ 4) / 10 ^ 4 }

/-- The value of a topic; a missing topic is a zero. -/
def valueOf (vec : TopicWeights ℚ) (topic : String) : ℚ := (vec.lookup topic).getD 0

/-- The part of a topic in a list of topics. -/
def part (topics : List String) (topic : String) : ℚ := topics.count topic / topics.length

/-- The weight of an event. -/
def weightOf (eventType : String) : ℚ :=
  exact.ofDecimal ((Worker.weights.lookup eventType).getD ⟨false, 0, 0⟩)

/-- What an event adds to each of `n` topics. -/
def shareOf {F : Type} (fl : Floats F) (eventType : String) (n : Nat) : F :=
  fl.div (fl.ofDecimal ((Worker.weights.lookup eventType).getD ⟨false, 0, 0⟩)) n

/-- An arithmetic in which a step `round(x + weight / n, 4)` is wrong by `ε` at most. -/
structure Approximates (fl : Floats ℚ) (ε : ℚ) : Prop where
  zero_eq : fl.zero = 0
  isZero_iff : ∀ eventType, ∀ n > 0,
    (fl.isZero (shareOf fl eventType n) = true ↔ weightOf eventType = 0)
  step_le : ∀ x eventType, ∀ n > 0,
    |fl.round4 (fl.add x (shareOf fl eventType n)) - (x + weightOf eventType / n)| ≤ ε

/-- How often the two computations add to a topic, and round. -/
def roundings (posts : Uuid → Post) (events : List (Uuid × String)) (rows : List Row)
    (topic : String) : Nat :=
  (events.map fun event => (workerTopics (posts event.1)).count topic).sum
    + (rows.map fun row => (aggregateTopics (posts row.post)).count topic).sum

theorem approximates_exact : Approximates exact 0 where
  zero_eq := by simp [Floats.zero, exact]
  isZero_iff eventType n hn := by
    have hne : (n : ℚ) ≠ 0 := by positivity
    show decide (weightOf eventType / n = 0) = true ↔ _
    rw [decide_eq_true_iff, div_eq_zero_iff, or_iff_left hne]
  step_le x eventType n _ := by
    show |x + weightOf eventType / n - (x + weightOf eventType / n)| ≤ 0
    rw [sub_self, abs_zero]

theorem approximates_fourDecimals : Approximates fourDecimals (1 / 20000) where
  zero_eq := approximates_exact.zero_eq
  isZero_iff := approximates_exact.isZero_iff
  step_le x eventType n _ := by
    show |(Oecophylla.Python.roundHalfEven ((x + weightOf eventType / n) * 10 ^ 4) : ℚ) / 10 ^ 4
      - (x + weightOf eventType / n)| ≤ 1 / 20000
    have hround := Oecophylla.Python.abs_roundHalfEven_sub_le
      ((x + weightOf eventType / n) * 10 ^ 4)
    rw [abs_le] at hround ⊢
    have hscale : ∀ k : ℚ, k / 10 ^ 4 - (x + weightOf eventType / n)
        = (k - (x + weightOf eventType / n) * 10 ^ 4) / 10 ^ 4 := by
      intro k
      field_simp
    rw [hscale]
    constructor
    · rw [le_div_iff₀ (by norm_num)]
      linarith [hround.1]
    · rw [div_le_iff₀ (by norm_num)]
      linarith [hround.2]

/-! ### One step -/

theorem valueOf_set (vec : TopicWeights ℚ) (name : String) (x : ℚ) (topic : String) :
    valueOf (Object.set vec name x) topic = if topic = name then x else valueOf vec topic := by
  have h := OrderedDict.get_set vec name x topic
  show (OrderedDict.get (OrderedDict.set vec name x) topic).getD 0 = _
  rw [h]
  split <;> rfl

theorem workerTopics_ne_nil (post : Post) : workerTopics post ≠ [] := by
  unfold workerTopics
  split
  · decide
  · assumption

theorem aggregateTopics_ne_nil (post : Post) : aggregateTopics post ≠ [] := by
  unfold aggregateTopics
  dsimp only
  split
  · decide
  · assumption

theorem count_mul_div_length (topics : List String) (topic : String) (x : ℚ) :
    topics.count topic * (x / topics.length) = x * part topics topic := by
  unfold part
  ring

theorem sum_map_ite_eq_count (topics : List String) (topic : String) (x : ℚ) :
    (topics.map fun name => if topic = name then x else 0).sum = topics.count topic * x := by
  induction topics with
  | nil => simp
  | cons name topics ih =>
    rw [List.map_cons, List.sum_cons, ih, List.count_cons]
    by_cases hname : topic = name
    · rw [if_pos hname, if_pos (by simp [hname])]
      push_cast
      ring
    · rw [if_neg hname, if_neg (by simpa using Ne.symm hname)]
      push_cast
      ring

section Steps

variable {fl : Floats ℚ} {ε : ℚ} (h : Approximates fl ε)
include h

theorem Approximates.nonneg : 0 ≤ ε := (abs_nonneg _).trans (h.step_le 0 "" 1 one_pos)

/-- Spreading a share adds it to a topic as often as the topic is named. -/
theorem Approximates.spread_le (vec : TopicWeights ℚ) (eventType topic : String)
    {topics : List String} (hne : topics ≠ []) :
    |valueOf (spread fl (shareOf fl eventType topics.length) vec topics) topic
        - (valueOf vec topic + weightOf eventType * part topics topic)|
      ≤ ε * topics.count topic := by
  have hpos : topics.length > 0 := List.length_pos_iff.mpr hne
  have hstep : ∀ out : TopicWeights ℚ, ∀ name ∈ topics,
      |valueOf (Object.set out name (fl.round4 (fl.add ((out.lookup name).getD fl.zero)
            (shareOf fl eventType topics.length)))) topic
          - (valueOf out topic + if topic = name then weightOf eventType / topics.length else 0)|
        ≤ if topic = name then ε else 0 := by
    intro out name _
    rw [valueOf_set]
    by_cases hname : topic = name
    · rw [if_pos hname, if_pos hname, if_pos hname, h.zero_eq, ← hname]
      exact h.step_le _ eventType _ hpos
    · rw [if_neg hname, if_neg hname, if_neg hname, add_zero, sub_self, abs_zero]
  have hsteps := Lib.abs_foldl_sub_le (fun out => valueOf out topic)
    (fun name => if topic = name then weightOf eventType / topics.length else 0)
    (fun name => if topic = name then ε else 0) hstep vec
  rw [sum_map_ite_eq_count, sum_map_ite_eq_count, count_mul_div_length, mul_comm _ ε] at hsteps
  exact hsteps

/-- An event of the worker adds its weight, in parts. -/
theorem Approximates.applyTopicDelta_le (vec : TopicWeights ℚ) (post : Post)
    (eventType topic : String) :
    |valueOf (applyTopicDelta fl vec (resolvedTopics post) eventType) topic
        - (valueOf vec topic + weightOf eventType * part (workerTopics post) topic)|
      ≤ ε * (workerTopics post).count topic := by
  have hne := workerTopics_ne_nil post
  have hspread : applyTopicDelta fl vec (resolvedTopics post) eventType
      = if fl.isZero (shareOf fl eventType (workerTopics post).length) then vec
        else spread fl (shareOf fl eventType (workerTopics post).length) vec
          (workerTopics post) := rfl
  rw [hspread]
  split
  · next hzero =>
    rw [(h.isZero_iff _ _ (List.length_pos_iff.mpr hne)).mp hzero, zero_mul, add_zero, sub_self,
      abs_zero]
    exact mul_nonneg h.nonneg (Nat.cast_nonneg _)
  · exact h.spread_le vec eventType topic hne

/-- A row adds its weight, in parts. -/
theorem Approximates.row_le (vec : TopicWeights ℚ) (post : Post) (kind : Kind) (topic : String) :
    |valueOf (spread fl (fl.div (fl.ofDecimal kind.weightFor) (aggregateTopics post).length) vec
          (aggregateTopics post)) topic
        - (valueOf vec topic
          + weightOf (featureEvent kind .post) * part (aggregateTopics post) topic)|
      ≤ ε * (aggregateTopics post).count topic := by
  have hweight : kind.weightFor
      = (Worker.weights.lookup (featureEvent kind .post)).getD ⟨false, 0, 0⟩ := by
    cases kind <;> decide
  rw [hweight]
  exact h.spread_le vec (featureEvent kind .post) topic (aggregateTopics_ne_nil post)

/-! ### Whole runs -/

/-- The worker's value of a topic is the sum over the events. -/
theorem Approximates.incremental_le (posts : Uuid → Post) (events : List (Uuid × String))
    (topic : String) :
    |valueOf (incremental fl posts events) topic
        - (events.map fun event => weightOf event.2 * part (workerTopics (posts event.1)) topic).sum|
      ≤ ε * (events.map fun event => (workerTopics (posts event.1)).count topic).sum := by
  have hsteps := Lib.abs_foldl_sub_le (fun vec => valueOf vec topic)
    (fun event : Uuid × String => weightOf event.2 * part (workerTopics (posts event.1)) topic)
    (fun event => ε * (workerTopics (posts event.1)).count topic)
    (fun vec event (_ : event ∈ events) =>
      h.applyTopicDelta_le vec (posts event.1) event.2 topic) []
  have hzero : valueOf [] topic = 0 := rfl
  rw [hzero, zero_add, List.sum_map_mul_left] at hsteps
  rw [Nat.cast_list_sum, List.map_map]
  exact hsteps

/-- The rebuilt value of a topic is the sum over the rows. -/
theorem Approximates.aggregate_le (posts : Uuid → Post) (rows : List Row) (topic : String) :
    |valueOf (aggregateTopicWeights fl posts rows) topic
        - (rows.map fun row => weightOf (featureEvent row.kind .post)
            * part (aggregateTopics (posts row.post)) topic).sum|
      ≤ ε * (rows.map fun row => (aggregateTopics (posts row.post)).count topic).sum := by
  have hsteps := Lib.abs_foldl_sub_le (fun vec => valueOf vec topic)
    (fun row : Row => weightOf (featureEvent row.kind .post)
      * part (aggregateTopics (posts row.post)) topic)
    (fun row => ε * (aggregateTopics (posts row.post)).count topic)
    (fun vec row (_ : row ∈ rows) => h.row_le vec (posts row.post) row.kind topic) []
  have hzero : valueOf [] topic = 0 := rfl
  rw [hzero, zero_add, List.sum_map_mul_left] at hsteps
  rw [Nat.cast_list_sum, List.map_map]
  unfold aggregateTopicWeights aggregateRows
  rw [List.foldl_map]
  exact hsteps

end Steps

/-! ### Events and rows -/

/-- Taking back has the opposite weight. -/
theorem weightOf_delete (kind : Kind) :
    weightOf (featureEvent kind .delete) = - weightOf (featureEvent kind .post) := by
  cases kind <;> decide +kernel

/-- A request changes the events and the rows by the same amount, whatever a post is worth: taking
    back subtracts what the row has added. -/
theorem sum_toggle (worth : Uuid → ℚ) {hist : History} (request : Request)
    (hsum : (hist.events.map fun event => weightOf event.2 * worth event.1).sum
      = (hist.rows.map fun row => weightOf (featureEvent row.kind .post) * worth row.post).sum) :
    ((toggle hist request).events.map fun event => weightOf event.2 * worth event.1).sum
      = ((toggle hist request).rows.map fun row =>
          weightOf (featureEvent row.kind .post) * worth row.post).sum := by
  obtain ⟨row, method⟩ := request
  unfold toggle
  cases method with
  | post =>
    by_cases hmem : row ∈ hist.rows
    · simp only [if_pos hmem, hsum]
    · simp only [if_neg hmem, List.map_append, List.sum_append, hsum, List.map_cons, List.map_nil]
  | delete =>
    by_cases hmem : row ∈ hist.rows
    · have hperm := ((List.perm_cons_erase hmem).map fun row : Row =>
        weightOf (featureEvent row.kind .post) * worth row.post).sum_eq
      rw [List.map_cons, List.sum_cons] at hperm
      simp only [if_pos hmem, List.map_append, List.sum_append, hsum, List.map_cons, List.map_nil,
        List.sum_cons, List.sum_nil, weightOf_delete, hperm]
      ring
    · simp only [if_neg hmem, hsum]

/-- The events of a history add up to its rows. -/
theorem sum_history (worth : Uuid → ℚ) (requests : List Request) :
    ((history requests).events.map fun event => weightOf event.2 * worth event.1).sum
      = ((history requests).rows.map fun row =>
          weightOf (featureEvent row.kind .post) * worth row.post).sum := by
  induction requests using List.reverseRecOn with
  | nil => rfl
  | append_singleton requests request ih =>
    unfold history
    rw [List.foldl_append]
    exact sum_toggle worth request ih

/-! ### Topics -/

theorem part_nonneg (topics : List String) (topic : String) : 0 ≤ part topics topic :=
  div_nonneg (Nat.cast_nonneg _) (Nat.cast_nonneg _)

theorem part_le_one (topics : List String) (topic : String) : part topics topic ≤ 1 :=
  div_le_one_of_le₀ (Nat.cast_le.mpr List.count_le_length) (Nat.cast_nonneg _)

theorem part_eq_zero {topics : List String} {topic : String} (h : topic ∉ topics) :
    part topics topic = 0 := by
  unfold part
  rw [List.count_eq_zero_of_not_mem h, Nat.cast_zero, zero_div]

theorem part_pos {topics : List String} {topic : String} (h : topic ∈ topics) :
    0 < part topics topic :=
  div_pos (Nat.cast_pos.mpr (List.count_pos_iff.mpr h))
    (Nat.cast_pos.mpr (List.length_pos_of_mem h))

theorem part_lt_one {topics : List String} {topic name : String} (h : name ∈ topics)
    (hne : name ≠ topic) : part topics topic < 1 := by
  have hlt : topics.count topic < topics.length := by
    refine lt_of_le_of_ne List.count_le_length fun heq => ?_
    exact hne (List.count_eq_length.mp heq name h).symm
  exact (div_lt_one (Nat.cast_pos.mpr (List.length_pos_of_mem h))).mpr (Nat.cast_lt.mpr hlt)

theorem part_of_forall_eq {topics : List String} {name : String} (hne : topics ≠ [])
    (h : ∀ t ∈ topics, t = name) (topic : String) :
    part topics topic = if topic = name then 1 else 0 := by
  split
  · next heq =>
    have hcount : topics.count topic = topics.length :=
      List.count_eq_length.mpr fun t ht => heq.trans (h t ht).symm
    unfold part
    rw [hcount, div_self]
    exact Nat.cast_ne_zero.mpr (List.length_pos_iff.mpr hne).ne'
  · next hneq => exact part_eq_zero fun hmem => hneq (h topic hmem)

/-- What the worker gives a topic of a post beyond what the rebuild gives it. -/
def excess (post : Post) (topic : String) : ℚ :=
  part (workerTopics post) topic - part (aggregateTopics post) topic

/-- A post with a topic other than `general`. -/
theorem topics_of_meaningful {post : Post}
    (h : ∃ topic ∈ post.topics, topic ≠ "" ∧ topic ≠ "general") :
    workerTopics post = post.topics
      ∧ aggregateTopics post = post.topics.filter fun topic => topic ≠ "" := by
  obtain ⟨topic, hmem, hempty, hgeneral⟩ := h
  constructor
  · have hresolved : resolvedTopics post = post.topics :=
      if_pos (List.ne_nil_of_mem (List.mem_filter.mpr ⟨hmem, by simp [hempty, hgeneral]⟩))
    unfold workerTopics
    rw [hresolved, if_neg (List.ne_nil_of_mem hmem)]
  · exact if_neg (List.ne_nil_of_mem (List.mem_filter.mpr ⟨hmem, by simpa using hempty⟩))

/-- A post without one: the rebuild reads `general` only. -/
theorem aggregateTopics_eq_general {post : Post}
    (h : ¬ ∃ topic ∈ post.topics, topic ≠ "" ∧ topic ≠ "general") :
    ∀ topic ∈ aggregateTopics post, topic = "general" := by
  intro topic hmem
  unfold aggregateTopics at hmem
  dsimp only at hmem
  split at hmem
  · exact List.mem_singleton.mp hmem
  · by_contra hgeneral
    obtain ⟨hmem, hempty⟩ := List.mem_filter.mp hmem
    exact h ⟨topic, hmem, by simpa using hempty, hgeneral⟩

theorem empty_not_mem_aggregateTopics (post : Post) : "" ∉ aggregateTopics post := by
  unfold aggregateTopics
  dsimp only
  split
  · decide
  · exact fun hmem => by simpa using (List.mem_filter.mp hmem).2

theorem excess_empty_nonneg (post : Post) : 0 ≤ excess post "" := by
  unfold excess
  rw [part_eq_zero (empty_not_mem_aggregateTopics post), sub_zero]
  exact part_nonneg _ _

theorem excess_general_nonpos (post : Post) : excess post "general" ≤ 0 := by
  unfold excess
  rw [sub_nonpos]
  by_cases h : ∃ topic ∈ post.topics, topic ≠ "" ∧ topic ≠ "general"
  · have hpos := List.length_pos_iff.mpr (aggregateTopics_ne_nil post)
    rw [(topics_of_meaningful h).1]
    rw [(topics_of_meaningful h).2] at hpos ⊢
    unfold part
    rw [List.count_filter (by decide)]
    exact div_le_div_of_nonneg_left (Nat.cast_nonneg _) (Nat.cast_pos.mpr hpos)
      (Nat.cast_le.mpr (List.length_filter_le _ _))
  · rw [part_of_forall_eq (aggregateTopics_ne_nil post) (aggregateTopics_eq_general h), if_pos rfl]
    exact part_le_one _ _

theorem excess_of_matched {post : Post} (hmatched : Matched post) (topic : String) :
    excess post topic = 0 := by
  unfold Matched at hmatched
  unfold excess
  rw [sub_eq_zero]
  by_cases h : ∃ topic ∈ post.topics, topic ≠ "" ∧ topic ≠ "general"
  · rw [if_pos h] at hmatched
    rw [(topics_of_meaningful h).1, (topics_of_meaningful h).2, List.filter_eq_self.mpr]
    intro name hname
    have hne : name ≠ "" := fun heq => hmatched (heq ▸ hname)
    simpa using hne
  · rw [if_neg h] at hmatched
    have hworker : ∀ topic ∈ workerTopics post, topic = "general" := by
      unfold workerTopics
      split
      · simp
      · exact hmatched
    rw [part_of_forall_eq (workerTopics_ne_nil post) hworker,
      part_of_forall_eq (aggregateTopics_ne_nil post) (aggregateTopics_eq_general h)]

theorem excess_of_not_matched {post : Post} (hmatched : ¬ Matched post) :
    0 < excess post "" ∨ excess post "general" < 0 := by
  unfold Matched at hmatched
  unfold excess
  by_cases h : ∃ topic ∈ post.topics, topic ≠ "" ∧ topic ≠ "general"
  · rw [if_pos h, not_not] at hmatched
    left
    rw [part_eq_zero (empty_not_mem_aggregateTopics post), sub_zero, (topics_of_meaningful h).1]
    exact part_pos hmatched
  · rw [if_neg h] at hmatched
    push Not at hmatched
    obtain ⟨name, hname, hne⟩ := hmatched
    have hworker : workerTopics post = resolvedTopics post := if_neg (List.ne_nil_of_mem hname)
    right
    rw [hworker, part_of_forall_eq (aggregateTopics_ne_nil post) (aggregateTopics_eq_general h),
      if_pos rfl, sub_neg]
    exact part_lt_one hname hne

/-! ### The comparison -/

/-- What the incremental vector has beyond the rebuilt one: the excess of every row. -/
theorem Approximates.difference_le {fl : Floats ℚ} {ε : ℚ} (h : Approximates fl ε)
    (posts : Uuid → Post) (requests : List Request) {rows : List Row}
    (hrows : rows.Perm (history requests).rows) (topic : String) :
    |valueOf (incremental fl posts (history requests).events) topic
        - valueOf (aggregateTopicWeights fl posts rows) topic
        - (rows.map fun row =>
            weightOf (featureEvent row.kind .post) * excess (posts row.post) topic).sum|
      ≤ ε * roundings posts (history requests).events rows topic := by
  have hincremental := h.incremental_le posts (history requests).events topic
  have haggregate := h.aggregate_le posts rows topic
  rw [sum_history (fun post => part (workerTopics (posts post)) topic),
    ← (hrows.map _).sum_eq] at hincremental
  have hsplit : (rows.map fun row => weightOf (featureEvent row.kind .post)
        * part (workerTopics (posts row.post)) topic).sum
      = (rows.map fun row => weightOf (featureEvent row.kind .post)
          * part (aggregateTopics (posts row.post)) topic).sum
        + (rows.map fun row =>
            weightOf (featureEvent row.kind .post) * excess (posts row.post) topic).sum := by
    rw [← List.sum_map_add]
    congr with row
    unfold excess
    ring
  unfold roundings
  rw [hsplit] at hincremental
  rw [Nat.cast_add, mul_add]
  rw [abs_le] at *
  constructor <;> linarith [hincremental.1, hincremental.2, haggregate.1, haggregate.2]

theorem weightOf_pos (kind : Kind) : 0 < weightOf (featureEvent kind .post) := by
  cases kind <;> decide +kernel

/-- If no term is negative and the sum is zero, every term is zero. -/
theorem excess_eq_zero_of_sum {posts : Uuid → Post} {rows : List Row} {topic : String} (sign : ℚ)
    (hsign : ∀ post, 0 ≤ sign * excess post topic)
    (hsum : (rows.map fun row =>
      weightOf (featureEvent row.kind .post) * excess (posts row.post) topic).sum = 0) :
    ∀ row ∈ rows, sign * excess (posts row.post) topic = 0 := by
  intro row hmem
  have hterms : (rows.map fun row =>
      weightOf (featureEvent row.kind .post) * (sign * excess (posts row.post) topic)).sum = 0 := by
    have hcomm : (fun row : Row => weightOf (featureEvent row.kind .post)
          * (sign * excess (posts row.post) topic))
        = fun row => sign * (weightOf (featureEvent row.kind .post)
          * excess (posts row.post) topic) := by
      ext row
      ring
    rw [hcomm, List.sum_map_mul_left, hsum, mul_zero]
  have hle : weightOf (featureEvent row.kind .post) * (sign * excess (posts row.post) topic)
      ≤ 0 := by
    rw [← hterms]
    refine List.single_le_sum (fun x hx => ?_) _ (List.mem_map_of_mem hmem)
    obtain ⟨row, -, rfl⟩ := List.mem_map.mp hx
    exact mul_nonneg (weightOf_pos row.kind).le (hsign _)
  nlinarith [weightOf_pos row.kind, hsign (posts row.post)]

/-- **When the rebuild agrees with the worker.**  Without rounding, the two vectors have the same
    values exactly when every post of a row is matched.  Then, in an arithmetic that is wrong by
    `ε` at most in a step, they differ by `ε` at most for every rounding. -/
theorem rebuild_agrees_iff (posts : Uuid → Post) (requests : List Request) (rows : List Row)
    (hrows : rows.Perm (history requests).rows) :
    ((∀ topic, valueOf (incremental exact posts (history requests).events) topic
          = valueOf (aggregateTopicWeights exact posts rows) topic)
        ↔ ∀ row ∈ rows, Matched (posts row.post))
      ∧ ((∀ row ∈ rows, Matched (posts row.post)) →
          ∀ fl ε, Approximates fl ε → ∀ topic,
            |valueOf (incremental fl posts (history requests).events) topic
                - valueOf (aggregateTopicWeights fl posts rows) topic|
              ≤ ε * roundings posts (history requests).events rows topic) := by
  have hmatched : (∀ row ∈ rows, Matched (posts row.post)) → ∀ topic,
      (rows.map fun row =>
        weightOf (featureEvent row.kind .post) * excess (posts row.post) topic).sum = 0 := by
    intro hall topic
    refine List.sum_eq_zero fun x hx => ?_
    obtain ⟨row, hmem, rfl⟩ := List.mem_map.mp hx
    rw [excess_of_matched (hall row hmem), mul_zero]
  have hexact : ∀ topic, valueOf (incremental exact posts (history requests).events) topic
      - valueOf (aggregateTopicWeights exact posts rows) topic
      = (rows.map fun row =>
          weightOf (featureEvent row.kind .post) * excess (posts row.post) topic).sum := by
    intro topic
    have hle := approximates_exact.difference_le posts requests hrows topic
    rw [zero_mul] at hle
    exact sub_eq_zero.mp (abs_nonpos_iff.mp hle)
  refine ⟨⟨fun heq row hmem => ?_, fun hall topic => ?_⟩, fun hall fl ε happrox topic => ?_⟩
  · have hsum : ∀ topic, (rows.map fun row =>
        weightOf (featureEvent row.kind .post) * excess (posts row.post) topic).sum = 0 :=
      fun topic => by rw [← hexact, heq, sub_self]
    have hempty := excess_eq_zero_of_sum 1
      (fun post => by rw [one_mul]; exact excess_empty_nonneg post) (hsum "") row hmem
    have hgeneral := excess_eq_zero_of_sum (-1)
      (fun post => by linarith [excess_general_nonpos post]) (hsum "general") row hmem
    by_contra hnot
    rcases excess_of_not_matched hnot with hpos | hneg
    · linarith
    · linarith
  · rw [← sub_eq_zero, hexact, hmatched hall]
  · have hle := happrox.difference_le posts requests hrows topic
    rwa [hmatched hall, sub_zero] at hle

/-- A user saves a post about `lean`, likes and unlikes it. -/
theorem rebuild_agrees_iff_saved :
    |valueOf (incremental fourDecimals (fun _ => ⟨0, ["lean", "general"], []⟩)
          [(7, "saved"), (7, "liked"), (7, "unliked")]) "lean"
        - valueOf (aggregateTopicWeights fourDecimals (fun _ => ⟨0, ["lean", "general"], []⟩)
          [⟨7, .save⟩]) "lean"|
      ≤ 1 / 20000 * roundings (fun _ => ⟨0, ["lean", "general"], []⟩)
          [(7, "saved"), (7, "liked"), (7, "unliked")] [⟨7, .save⟩] "lean" :=
  (rebuild_agrees_iff (fun _ => ⟨0, ["lean", "general"], []⟩)
    [⟨⟨7, .save⟩, .post⟩, ⟨⟨7, .like⟩, .post⟩, ⟨⟨7, .like⟩, .delete⟩] [⟨7, .save⟩]
    (by decide)).2 (by decide) fourDecimals (1 / 20000) approximates_fourDecimals "lean"

/-- A like of a post with the topic `general` and the tag `lean`. -/
theorem tag_is_not_rebuilt :
    (history [⟨⟨7, .like⟩, .post⟩]).rows = [⟨7, .like⟩]
      ∧ valueOf (incremental fourDecimals (fun _ => ⟨0, ["general"], ["lean"]⟩)
          (history [⟨⟨7, .like⟩, .post⟩]).events) "lean" = 3 / 2
      ∧ valueOf (aggregateTopicWeights fourDecimals (fun _ => ⟨0, ["general"], ["lean"]⟩)
          [⟨7, .like⟩]) "lean" = 0 := by
  decide +kernel

end Oecophylla.Recommendation
