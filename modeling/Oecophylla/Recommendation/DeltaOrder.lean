import Oecophylla.Python.Rounding
import Oecophylla.Recommendation.Rebuild

namespace Oecophylla.Recommendation

open Lib (OrderedDict)
open Worker (Floats TopicWeights applyTopicDelta)
open Python (IsTie roundHalfEven)

/-!
# The order of the v1 deltas — `feature_store_worker/app/features.py`

The worker adds the events of a user to the vector in the order in which it gets them.  Every step
rounds the sum to four decimals.

* `applyDeltas` — the deltas, one after the other;
* `OrderFree`, `UndoCancels` — any order gives the same vector, and an undo takes its action back;
* `round4_add` — a share that is no tie is rounded on its own;
* `orderFree_and_undoCancels` — without ties both hold;
* `ties_depend_on_order` — with ties neither does.
-/

/-- An interaction, with the topics of its post. -/
structure Delta where
  topics : List String
  eventType : String
  deriving DecidableEq, Repr

namespace Delta

variable (d : Delta)

/-- The topics that get a share. -/
def spreadTopics : List String := if d.topics = [] then ["general"] else d.topics

/-- What every topic gets. -/
def share : ℚ := weightOf d.eventType / d.spreadTopics.length

/-- The share lies midway between two numbers with four decimals. -/
def OnTie : Prop := IsTie (d.share * 10 ^ 4)

instance : Decidable d.OnTie := inferInstanceAs (Decidable (IsTie _))

end Delta

/-- The loop of `_apply_for_user`. -/
def applyDeltas {F : Type} (fl : Floats F) (vec : TopicWeights F) (deltas : List Delta) :
    TopicWeights F :=
  deltas.foldl (fun vec d => applyTopicDelta fl vec d.topics d.eventType) vec

/-- A number with four decimals. -/
def FourDecimal (x : ℚ) : Prop := ∃ n : Int, x = n / 10 ^ 4

/-- Any order of the deltas gives the same dictionary. -/
def OrderFree (vec : TopicWeights ℚ) (deltas : List Delta) : Prop :=
  ∀ deltas', deltas.Perm deltas' → ∀ topic,
    (applyDeltas fourDecimals vec deltas').lookup topic
      = (applyDeltas fourDecimals vec deltas).lookup topic

/-- An action and its undo, at some later point, can be left out, up to zero entries. -/
def UndoCancels (vec : TopicWeights ℚ) (deltas : List Delta) : Prop :=
  ∀ before between after topics kind,
    deltas = before ++ ⟨topics, featureEvent kind .post⟩
        :: (between ++ ⟨topics, featureEvent kind .delete⟩ :: after) → ∀ topic,
      valueOf (applyDeltas fourDecimals vec deltas) topic
        = valueOf (applyDeltas fourDecimals vec (before ++ between ++ after)) topic

/-! ### Rounding -/

theorem round4_eq (x : ℚ) : fourDecimals.round4 x = roundHalfEven (x * 10 ^ 4) / 10 ^ 4 := rfl

theorem fourDecimal_round4 (x : ℚ) : FourDecimal (fourDecimals.round4 x) := ⟨_, round4_eq x⟩

theorem fourDecimal_zero : FourDecimal 0 := ⟨0, by simp⟩

/-- **Rounding a sum.**  A share that is no tie is rounded on its own. -/
theorem round4_add {x share : ℚ} (hx : FourDecimal x) (hshare : ¬ IsTie (share * 10 ^ 4)) :
    fourDecimals.round4 (x + share) = x + fourDecimals.round4 share := by
  obtain ⟨n, rfl⟩ := hx
  have hscale : ((n : ℚ) / 10 ^ 4 + share) * 10 ^ 4 = n + share * 10 ^ 4 := by
    rw [add_mul, div_mul_cancel₀ _ (by norm_num)]
  rw [round4_eq, round4_eq, hscale, Python.roundHalfEven_intCast_add hshare, Int.cast_add, add_div]

theorem round4_neg (x : ℚ) : fourDecimals.round4 (-x) = - fourDecimals.round4 x := by
  rw [round4_eq, round4_eq, neg_mul, Python.roundHalfEven_neg, Int.cast_neg, neg_div]

/-! ### One delta -/

/-- The values of a vector have four decimals. -/
def FourDecimals (vec : TopicWeights ℚ) : Prop := ∀ topic, FourDecimal (valueOf vec topic)

theorem fourDecimals_of_entries {vec : TopicWeights ℚ} (h : ∀ e ∈ vec, FourDecimal e.2) :
    FourDecimals vec := by
  intro topic
  unfold valueOf
  cases hvalue : vec.lookup topic with
  | none => exact fourDecimal_zero
  | some x => exact h (topic, x) (OrderedDict.mem_of_get hvalue)

/-- A delta without a share changes nothing; the others are spread. -/
theorem applyTopicDelta_eq (vec : TopicWeights ℚ) (d : Delta) :
    applyTopicDelta fourDecimals vec d.topics d.eventType
      = if d.share = 0 then vec else spread fourDecimals d.share vec d.spreadTopics := by
  have hshare : applyTopicDelta fourDecimals vec d.topics d.eventType
      = if decide (d.share = 0) = true then vec
        else spread fourDecimals d.share vec d.spreadTopics := rfl
  rw [hshare]
  simp only [decide_eq_true_eq]

theorem fourDecimals_set {vec : TopicWeights ℚ} (hvec : FourDecimals vec) (name : String) (x : ℚ) :
    FourDecimals (Object.set vec name (fourDecimals.round4 x)) := by
  intro topic
  rw [valueOf_set]
  split
  · exact fourDecimal_round4 x
  · exact hvec topic

/-- Spreading a share that is no tie adds the rounded share, as often as a topic is named. -/
theorem valueOf_spread {vec : TopicWeights ℚ} (hvec : FourDecimals vec) {share : ℚ}
    (hshare : ¬ IsTie (share * 10 ^ 4)) (topics : List String) :
    FourDecimals (spread fourDecimals share vec topics)
      ∧ ∀ topic, valueOf (spread fourDecimals share vec topics) topic
          = valueOf vec topic + topics.count topic * fourDecimals.round4 share := by
  have hzero : fourDecimals.zero = 0 := approximates_fourDecimals.zero_eq
  have hadds : ∀ topic, FourDecimals (spread fourDecimals share vec topics)
      ∧ valueOf (spread fourDecimals share vec topics) topic = valueOf vec topic
          + (topics.map fun name => if topic = name then fourDecimals.round4 share else 0).sum := by
    intro topic
    -- over the topics that are named; each keeps the values at four decimals
    refine Lib.foldl_eq_add_sum FourDecimals (fun out => valueOf out topic)
      (fun name => if topic = name then fourDecimals.round4 share else 0)
      (fun out hout name _ => fourDecimals_set hout name _) (fun out hout name _ => ?_) hvec
    rw [valueOf_set]
    -- an absent entry counts as zero, as `vec.get(topic, 0.0)`
    by_cases hname : topic = name
    · rw [if_pos hname, if_pos hname, hzero, hname]
      exact round4_add (hout name) hshare
    · rw [if_neg hname, if_neg hname, add_zero]
  refine ⟨(hadds "").1, fun topic => ?_⟩
  rw [(hadds topic).2, sum_map_ite_eq_count]

/-- What a delta adds to a topic. -/
def Delta.amount (d : Delta) (topic : String) : ℚ :=
  d.spreadTopics.count topic * fourDecimals.round4 d.share

theorem Delta.amount_of_share {d : Delta} (h : d.share = 0) (topic : String) :
    d.amount topic = 0 := by
  have hround : roundHalfEven 0 = 0 := Python.roundHalfEven_intCast 0
  unfold Delta.amount
  rw [h, round4_eq, zero_mul, hround]
  simp

/-- **One delta** that is no tie adds its amounts. -/
theorem valueOf_applyTopicDelta {vec : TopicWeights ℚ} (hvec : FourDecimals vec) {d : Delta}
    (htie : ¬ d.OnTie) :
    FourDecimals (applyTopicDelta fourDecimals vec d.topics d.eventType)
      ∧ ∀ topic, valueOf (applyTopicDelta fourDecimals vec d.topics d.eventType) topic
          = valueOf vec topic + d.amount topic := by
  rw [applyTopicDelta_eq]
  split
  · next hzero =>
    refine ⟨hvec, fun topic => ?_⟩
    rw [Delta.amount_of_share hzero, add_zero]
  · exact valueOf_spread hvec htie d.spreadTopics

/-! ### The entries that there are -/

/-- The delta makes an entry for the topic. -/
def Delta.touches (d : Delta) (topic : String) : Bool :=
  decide (d.share ≠ 0) && d.spreadTopics.contains topic

theorem isSome_lookup_set (vec : TopicWeights ℚ) (name : String) (x : ℚ) (topic : String) :
    ((Object.set vec name x).lookup topic).isSome
      = ((vec.lookup topic).isSome || topic == name) := by
  have h : (Object.set vec name x).lookup topic
      = if topic = name then some x else vec.lookup topic := OrderedDict.get_set vec name x topic
  rw [h]
  by_cases hname : topic = name
  · simp [hname]
  · simp [hname]

theorem isSome_lookup_spread (share : ℚ) (vec : TopicWeights ℚ) (topics : List String)
    (topic : String) :
    ((spread fourDecimals share vec topics).lookup topic).isSome
      = ((vec.lookup topic).isSome || topics.contains topic) := by
  unfold spread
  induction topics generalizing vec with
  | nil => simp
  | cons name topics ih =>
    rw [List.foldl_cons, ih, isSome_lookup_set, List.contains_cons, Bool.or_assoc]

theorem isSome_lookup_applyDeltas (vec : TopicWeights ℚ) (deltas : List Delta) (topic : String) :
    ((applyDeltas fourDecimals vec deltas).lookup topic).isSome
      = ((vec.lookup topic).isSome || deltas.any fun d => d.touches topic) := by
  unfold applyDeltas
  induction deltas generalizing vec with
  | nil => simp
  | cons d deltas ih =>
    rw [List.foldl_cons, ih, applyTopicDelta_eq, List.any_cons, ← Bool.or_assoc]
    unfold Delta.touches
    by_cases hzero : d.share = 0
    · simp [hzero]
    · simp [hzero, isSome_lookup_spread]

/-! ### All deltas -/

section All

variable {vec : TopicWeights ℚ} {deltas : List Delta}

/-- **All deltas** that are no ties add their amounts. -/
theorem valueOf_applyDeltas (hvec : FourDecimals vec) (hties : ∀ d ∈ deltas, ¬ d.OnTie)
    (topic : String) :
    valueOf (applyDeltas fourDecimals vec deltas) topic
      = valueOf vec topic + (deltas.map fun d => d.amount topic).sum :=
  (Lib.foldl_eq_add_sum FourDecimals (fun vec => valueOf vec topic)
    (fun d : Delta => d.amount topic)
    (fun _ hvec d hd => (valueOf_applyTopicDelta hvec (hties d hd)).1)
    (fun _ hvec d hd => (valueOf_applyTopicDelta hvec (hties d hd)).2 topic) hvec).2

/-- An entry is known by whether it is there, and its value. -/
theorem lookup_eq_of {vec vec' : TopicWeights ℚ} {topic : String}
    (hsome : (vec.lookup topic).isSome = (vec'.lookup topic).isSome)
    (hvalue : valueOf vec topic = valueOf vec' topic) : vec.lookup topic = vec'.lookup topic := by
  unfold valueOf at hvalue
  cases h : vec.lookup topic with
  | none =>
    rw [h, eq_comm, Option.isSome_none, Option.isSome_eq_false_iff, Option.isNone_iff_eq_none]
      at hsome
    rw [hsome]
  | some x =>
    rw [h, eq_comm, Option.isSome_some, Option.isSome_iff_exists] at hsome
    obtain ⟨y, hy⟩ := hsome
    rw [h, hy, Option.getD_some, Option.getD_some] at hvalue
    rw [hy, hvalue]

/-- Without ties the order does not matter. -/
theorem orderFree (hvec : FourDecimals vec) (hties : ∀ d ∈ deltas, ¬ d.OnTie) :
    OrderFree vec deltas := by
  intro deltas' hperm topic
  have hties' : ∀ d ∈ deltas', ¬ d.OnTie := fun d hd => hties d (hperm.mem_iff.mpr hd)
  -- the same entries are there, with the same sums
  apply lookup_eq_of
  · rw [isSome_lookup_applyDeltas, isSome_lookup_applyDeltas, hperm.any_eq]
  · rw [valueOf_applyDeltas hvec hties, valueOf_applyDeltas hvec hties', (hperm.map _).sum_eq]

/-- An undo takes back what its action has added. -/
theorem amount_delete (topics : List String) (kind : Kind) (topic : String) :
    (⟨topics, featureEvent kind .delete⟩ : Delta).amount topic
      = - (⟨topics, featureEvent kind .post⟩ : Delta).amount topic := by
  have hshare : (⟨topics, featureEvent kind .delete⟩ : Delta).share
      = - (⟨topics, featureEvent kind .post⟩ : Delta).share := by
    unfold Delta.share Delta.spreadTopics
    rw [weightOf_delete, neg_div]
  unfold Delta.amount
  rw [hshare, round4_neg, mul_neg]
  rfl

/-- Without ties an undo cancels its action. -/
theorem undoCancels (hvec : FourDecimals vec) (hties : ∀ d ∈ deltas, ¬ d.OnTie) :
    UndoCancels vec deltas := by
  rintro before between after topics kind rfl topic
  have hrest : ∀ d ∈ before ++ between ++ after, ¬ d.OnTie := by
    intro d hd
    apply hties
    simp only [List.mem_append, List.mem_cons] at hd ⊢
    tauto
  rw [valueOf_applyDeltas hvec hties, valueOf_applyDeltas hvec hrest]
  simp only [List.map_append, List.map_cons, List.sum_append, List.sum_cons, amount_delete]
  ring

/-- **Order and undo.**  In exact arithmetic with rounding to four decimals, deltas whose shares are
    no ties can be applied in any order, and an undo takes its action back. -/
theorem orderFree_and_undoCancels (hvec : ∀ e ∈ vec, FourDecimal e.2)
    (hties : ∀ d ∈ deltas, ¬ d.OnTie) : OrderFree vec deltas ∧ UndoCancels vec deltas :=
  ⟨orderFree (fourDecimals_of_entries hvec) hties,
    undoCancels (fourDecimals_of_entries hvec) hties⟩

end All

/-- A like of a post with three topics, a read, and the like taken back. -/
theorem orderFree_and_undoCancels_three :
    OrderFree [("a", 1 / 2)] [⟨["a", "b", "c"], "liked"⟩, ⟨["a"], "viewed"⟩,
        ⟨["a", "b", "c"], "unliked"⟩]
      ∧ UndoCancels [("a", 1 / 2)] [⟨["a", "b", "c"], "liked"⟩, ⟨["a"], "viewed"⟩,
        ⟨["a", "b", "c"], "unliked"⟩] :=
  orderFree_and_undoCancels (by simpa using ⟨5000, by norm_num⟩) (by decide +kernel)

/-! ### Ties -/

/-- The topics of a long post. -/
def sixteenTopics : List String :=
  ["a", "b", "c", "d", "e", "f", "g", "h", "i", "j", "k", "l", "m", "n", "o", "p"]

/-- **Counterexample.**  A sixteenth of `0.5` is `0.03125`, one of `2.5` is `0.15625`.  The first
    is rounded down or up, as the sum is even; and the second is not taken back from `0.0001`.  In
    doubles it is so, too: the sums are `0.8645` or `0.8646`, and nothing is left of `0.0001`. -/
theorem ties_depend_on_order :
    (¬ ∀ vec deltas, (∀ e ∈ vec, FourDecimal e.2) → OrderFree vec deltas)
      ∧ ¬ ∀ vec deltas, (∀ e ∈ vec, FourDecimal e.2) → UndoCancels vec deltas := by
  constructor
  · intro hall
    have horder := hall [] [⟨sixteenTopics, "viewed"⟩, ⟨["a", "x", "y"], "saved"⟩] (by simp)
      [⟨["a", "x", "y"], "saved"⟩, ⟨sixteenTopics, "viewed"⟩] (List.Perm.swap _ _ _) "a"
    revert horder
    decide +kernel
  · intro hall
    have hentry : ∀ e ∈ [("a", (1 / 10000 : ℚ))], FourDecimal e.2 := by
      simpa using ⟨1, by norm_num⟩
    have hundo := hall [("a", 1 / 10000)] [⟨sixteenTopics, "saved"⟩, ⟨sixteenTopics, "unsaved"⟩]
      hentry [] [] [] sixteenTopics .save rfl "a"
    revert hundo
    decide +kernel

end Oecophylla.Recommendation
