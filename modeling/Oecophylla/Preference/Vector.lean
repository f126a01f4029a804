import Oecophylla.Preference.Replay
import Oecophylla.Python.Double

namespace Oecophylla.Preference

open Lib (OrderedDict compareBy stableSort)
open Oecophylla.Python (nearestDouble roundDigits smallestDouble)

/-!
# The v2 preference vector — the weights of `build_preference_vector_v2`

The contributions of the replay are weighted by their age and added up, topic by topic, in two
channels.  The results of the arithmetic are doubles; `math.exp2` is a parameter.

* `decayed`, `share`, `contribute` — the weight of a contribution;
* `channels` — the channels before they are rounded;
* `buildPreferenceVectorV2` — the whole function;
* `bounded_channels` — every value is in `[0, bound]`, and positive unless a share is rounded to
  zero;
* `channels_map` — the channels look at the time and the topics of a contribution only.
-/

/-- The weights of `CANONICAL_WEIGHTS`. -/
def weightOf : String → ℚ
  | "click" => 1
  | "qualified_read" => 1 / 2
  | "like" => 3 / 2
  | "save" => 5 / 2
  | "share" => 5 / 2
  | "hide" => -2
  | "report" => -5
  | "comment" => 1
  | _ => 0

/-- `PREFERENCE_SCHEMA_V2`. -/
def preferenceSchemaV2 : String := "preference-vector-v2"

/-- `PreferenceVectorV2`. -/
structure PreferenceVectorV2 where
  positive : OrderedDict String ℚ
  negative : OrderedDict String ℚ
  referenceAt : Instant
  sourceEventCount : Nat
  schemaVersion : String
  deriving DecidableEq

/-- The two channels, while they are added up. -/
structure Channels where
  positive : OrderedDict String ℚ
  negative : OrderedDict String ℚ
  deriving DecidableEq

/-- `max(0.0, (reference_at - occurred_at).total_seconds() / 3600.0)`. -/
def ageHours (referenceAt occurredAt : Instant) : ℚ :=
  max 0 (nearestDouble (nearestDouble ((referenceAt - occurredAt : Int) / 1000000) / 3600))

/-- The non-empty topics of an event, or `general`. -/
def topicsOrGeneral (event : PreferenceEvent) : List String :=
  let topics := event.topics.filter fun topic => topic ≠ ""
  if topics = [] then ["general"] else topics

section Weights

variable (exp2 : ℚ → ℚ) (halfLifeHours channelBound : ℚ) (referenceAt : Instant)

/-- `weight * exp2(-age_hours / half_life_hours)`. -/
def decayed (contribution : PreferenceEvent × String) : ℚ :=
  nearestDouble (weightOf contribution.2
    * exp2 (nearestDouble (-ageHours referenceAt contribution.1.occurredAt / halfLifeHours)))

/-- `abs(decayed) / len(topics)`. -/
def share (contribution : PreferenceEvent × String) : ℚ :=
  nearestDouble (|decayed exp2 halfLifeHours referenceAt contribution|
    / (topicsOrGeneral contribution.1).length)

/-- `channel[topic] = min(channel_bound, channel.get(topic, 0.0) + share)`. -/
def addShare (amount : ℚ) (channel : OrderedDict String ℚ) (topic : String) :
    OrderedDict String ℚ :=
  channel.set topic (min channelBound (nearestDouble ((channel.get topic).getD 0 + amount)))

/-- One round of the loop over the contributions. -/
def contribute (c : Channels) (contribution : PreferenceEvent × String) : Channels :=
  let amount := share exp2 halfLifeHours referenceAt contribution
  let add := fun channel => (topicsOrGeneral contribution.1).foldl (addShare channelBound amount) channel
  if 0 < decayed exp2 halfLifeHours referenceAt contribution then
    { c with positive := add c.positive }
  else { c with negative := add c.negative }

/-- The channels before they are rounded. -/
def channels (contributions : List (PreferenceEvent × String)) : Channels :=
  contributions.foldl (contribute exp2 halfLifeHours channelBound referenceAt) ⟨[], []⟩

end Weights

/-- `_rounded_channel(channel)`. -/
def roundedChannel (channel : OrderedDict String ℚ) : OrderedDict String ℚ :=
  ((stableSort (compareBy compare Prod.fst) channel).map fun entry =>
    (entry.1, roundDigits 10 entry.2)).filter fun entry =>
      nearestDouble (1 / 10 ^ 12) < |entry.2| ∧ 0 < entry.2

/-- `build_preference_vector_v2(events, …)`; the error is the text of its `ValueError`. -/
def buildPreferenceVectorV2 (exp2 : ℚ → ℚ) (events : List PreferenceEvent)
    (referenceAt : Option Instant) (now : Instant) (halfLifeHours channelBound : ℚ)
    (qualifiedReadMs : Int) : Except String PreferenceVectorV2 :=
  if halfLifeHours ≤ 0 ∨ channelBound ≤ 0 then
    .error "half_life_hours and channel_bound must be positive"
  else
    let left := contributions (replay events referenceAt now qualifiedReadMs)
    let reference := referenceAtOf events referenceAt now
    let c := channels exp2 halfLifeHours channelBound reference left
    .ok {
      positive := roundedChannel c.positive
      negative := roundedChannel c.negative
      referenceAt := reference
      sourceEventCount := left.length
      schemaVersion := preferenceSchemaV2 }

/-! ### The channels -/

section Weights

variable {exp2 : ℚ → ℚ} {halfLifeHours channelBound : ℚ} {referenceAt : Instant}

theorem share_nonneg (contribution : PreferenceEvent × String) :
    0 ≤ share exp2 halfLifeHours referenceAt contribution :=
  Oecophylla.Python.nearestDouble_nonneg (div_nonneg (abs_nonneg _) (by positivity))

/-- A positive share is at least the smallest double. -/
theorem smallestDouble_le_share {contribution : PreferenceEvent × String}
    (h : 0 < share exp2 halfLifeHours referenceAt contribution) :
    smallestDouble ≤ share exp2 halfLifeHours referenceAt contribution :=
  Oecophylla.Python.smallestDouble_le h

/-- What holds of the values of a channel: they are in `[0, bound]`, and positive if `strict`. -/
def Bounded (strict : Prop) (channelBound : ℚ) (channel : OrderedDict String ℚ) : Prop :=
  ∀ entry ∈ channel, 0 ≤ entry.2 ∧ entry.2 ≤ channelBound ∧ (strict → 0 < entry.2)

theorem bounded_nil {strict : Prop} : Bounded strict channelBound [] := fun _ h => nomatch h

theorem Bounded.mono {strict strict' : Prop} {channel : OrderedDict String ℚ}
    (h : Bounded strict channelBound channel) (himp : strict' → strict) :
    Bounded strict' channelBound channel := fun entry hentry =>
  ⟨(h entry hentry).1, (h entry hentry).2.1, fun hs => (h entry hentry).2.2 (himp hs)⟩

/-- One step for one topic. -/
theorem Bounded.addShare {strict : Prop} {amount : ℚ} {channel : OrderedDict String ℚ}
    (h : Bounded strict channelBound channel) (hbound : 0 < channelBound)
    (hamount : 0 ≤ amount) (hstrict : strict → smallestDouble ≤ amount) (topic : String) :
    Bounded strict channelBound (addShare channelBound amount channel topic) := by
  have hold : 0 ≤ (channel.get topic).getD 0 := by
    cases hget : channel.get topic with
    | none => exact le_rfl
    | some value => exact (h _ (OrderedDict.mem_of_get hget)).1
  have hsum : 0 ≤ (channel.get topic).getD 0 + amount := add_nonneg hold hamount
  intro entry hentry
  rcases OrderedDict.mem_set hentry with hentry | rfl
  · exact h entry hentry
  · refine ⟨le_min hbound.le (Oecophylla.Python.nearestDouble_nonneg hsum), min_le_left _ _,
      fun hs => lt_min hbound (Oecophylla.Python.nearestDouble_pos ?_)⟩
    exact (hstrict hs).trans (le_add_of_nonneg_left hold)

theorem Bounded.foldl_addShare {strict : Prop} {amount : ℚ} {channel : OrderedDict String ℚ}
    (h : Bounded strict channelBound channel) (hbound : 0 < channelBound)
    (hamount : 0 ≤ amount) (hstrict : strict → smallestDouble ≤ amount) (topics : List String) :
    Bounded strict channelBound (topics.foldl (Preference.addShare channelBound amount) channel) := by
  induction topics generalizing channel with
  | nil => exact h
  | cons topic topics ih => exact ih (h.addShare hbound hamount hstrict topic)

/-- No share is rounded to zero. -/
def NoUnderflow (exp2 : ℚ → ℚ) (halfLifeHours : ℚ) (referenceAt : Instant)
    (left : List (PreferenceEvent × String)) : Prop :=
  ∀ contribution ∈ left, 0 < share exp2 halfLifeHours referenceAt contribution

/-- One contribution. -/
theorem bounded_contribute {strict : Prop} {c : Channels}
    {contribution : PreferenceEvent × String} (hbound : 0 < channelBound)
    (hstrict : strict → 0 < share exp2 halfLifeHours referenceAt contribution)
    (hpositive : Bounded strict channelBound c.positive)
    (hnegative : Bounded strict channelBound c.negative) :
    Bounded strict channelBound
        (contribute exp2 halfLifeHours channelBound referenceAt c contribution).positive
      ∧ Bounded strict channelBound
        (contribute exp2 halfLifeHours channelBound referenceAt c contribution).negative := by
  have hsmall : strict → smallestDouble ≤ share exp2 halfLifeHours referenceAt contribution :=
    fun hs => smallestDouble_le_share (hstrict hs)
  unfold contribute
  dsimp only
  split
  · exact ⟨hpositive.foldl_addShare hbound (share_nonneg _) hsmall _, hnegative⟩
  · exact ⟨hpositive, hnegative.foldl_addShare hbound (share_nonneg _) hsmall _⟩

/-- **The values of the channels** are in `[0, bound]`, and positive when no share is rounded to
    zero. -/
theorem bounded_channels (exp2 : ℚ → ℚ) (halfLifeHours : ℚ) (referenceAt : Instant) (hbound : 0 < channelBound) (left : List (PreferenceEvent × String)) :
    Bounded (NoUnderflow exp2 halfLifeHours referenceAt left) channelBound
        (channels exp2 halfLifeHours channelBound referenceAt left).positive
      ∧ Bounded (NoUnderflow exp2 halfLifeHours referenceAt left) channelBound
        (channels exp2 halfLifeHours channelBound referenceAt left).negative := by
  unfold channels
  induction left using List.reverseRecOn with
  | nil => exact ⟨bounded_nil, bounded_nil⟩
  | append_singleton left contribution ih =>
    rw [List.foldl_append, List.foldl_cons, List.foldl_nil]
    have hall : NoUnderflow exp2 halfLifeHours referenceAt (left ++ [contribution]) →
        NoUnderflow exp2 halfLifeHours referenceAt left :=
      fun h c hc => h c (List.mem_append_left _ hc)
    exact bounded_contribute hbound (fun h => h _ (by simp)) (ih.1.mono hall) (ih.2.mono hall)

/-- **The channels look at the time, the topics and the type of a contribution only.** -/
theorem channels_map {g : PreferenceEvent → PreferenceEvent}
    (htime : ∀ event, (g event).occurredAt = event.occurredAt)
    (htopics : ∀ event, (g event).topics = event.topics) (left : List (PreferenceEvent × String)) :
    channels exp2 halfLifeHours channelBound referenceAt (left.map (Prod.map g id))
      = channels exp2 halfLifeHours channelBound referenceAt left := by
  have hround : ∀ c contribution, contribute exp2 halfLifeHours channelBound referenceAt c
      (Prod.map g id contribution)
        = contribute exp2 halfLifeHours channelBound referenceAt c contribution := by
    intro c contribution
    unfold contribute share decayed topicsOrGeneral
    rw [Prod.map_fst, Prod.map_snd, htime, htopics]
    rfl
  unfold channels
  rw [List.foldl_map]
  simp only [hround]

end Weights

end Oecophylla.Preference
