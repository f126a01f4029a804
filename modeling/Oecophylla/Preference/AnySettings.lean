import Oecophylla.Preference.Vector
import Oecophylla.Python.Float64

namespace Oecophylla.Preference.AnySettings

open Lib (OrderedDict compareBy stableSort)
open Oecophylla.Python (Float64 nearestDouble roundDigits)

/-!
# The v2 preference vector under any settings

`preference_half_life_hours` and `preference_channel_bound` are read from the environment, where
any float may stand.  Here `build_preference_vector_v2` is modelled for all of them.

* `Settings` — the two settings;
* `Payload` — `PreferenceVectorV2`, as it is written;
* `buildPreferenceVectorV2` — the function;
* `build_of_finite` — on finite settings it is the function of `Preference.Vector`;
* `Kept`, `Kept.channels` — what `min` gives every value;
* `roundedChannel_of_finite_bound`, `roundedChannel_of_nan` — what is written under a finite bound,
  and under one that is not a number.
-/

/-- The settings of the worker that the vector depends on. -/
structure Settings where
  preferenceHalfLifeHours : Float64
  preferenceChannelBound : Float64
  deriving DecidableEq

/-- `PreferenceVectorV2`, with the values of its channels in `F`. -/
structure Payload (F : Type) where
  schemaVersion : String
  positive : OrderedDict String F
  negative : OrderedDict String F
  referenceAt : Instant
  sourceEventCount : Nat
  deriving DecidableEq

/-- A payload whose values are rewritten. -/
def Payload.map {F G : Type} (g : F → G) (p : Payload F) : Payload G :=
  ⟨p.schemaVersion, p.positive.map (Prod.map id g), p.negative.map (Prod.map id g), p.referenceAt,
    p.sourceEventCount⟩

/-- `x <= 0`. -/
def notPositive : Float64 → Prop
  | .finite q => q ≤ 0
  | .infinite negative => negative = true
  | .nan => False

instance : DecidablePred notPositive := fun x =>
  match x with
  | .finite q => inferInstanceAs (Decidable (q ≤ 0))
  | .infinite negative => inferInstanceAs (Decidable (negative = true))
  | .nan => isFalse id

section Weights

variable (exp2 : ℚ → ℚ) (settings : Settings) (referenceAt : Instant)

/-- `weight * exp2(-age_hours / half_life_hours)`. -/
def decayed (contribution : PreferenceEvent × String) : Float64 :=
  (Float64.exp2Of exp2 ((Float64.finite (-ageHours referenceAt contribution.1.occurredAt)).div
    settings.preferenceHalfLifeHours)).scale (weightOf contribution.2)

/-- `abs(decayed) / len(topics)`. -/
def share (contribution : PreferenceEvent × String) : Float64 :=
  (decayed exp2 settings referenceAt contribution).abs.div
    (.finite (topicsOrGeneral contribution.1).length)

/-- `channel[topic] = min(channel_bound, channel.get(topic, 0.0) + share)`. -/
def addShare (amount : Float64) (channel : OrderedDict String Float64) (topic : String) :
    OrderedDict String Float64 :=
  channel.set topic (.minOf settings.preferenceChannelBound
    (((channel.get topic).getD (.finite 0)).add amount))

/-- One round of the loop over the contributions. -/
def contribute (c : OrderedDict String Float64 × OrderedDict String Float64)
    (contribution : PreferenceEvent × String) :
    OrderedDict String Float64 × OrderedDict String Float64 :=
  let amount := share exp2 settings referenceAt contribution
  let add := fun channel => (topicsOrGeneral contribution.1).foldl (addShare settings amount) channel
  if .finite 0 < decayed exp2 settings referenceAt contribution then (add c.1, c.2)
  else (c.1, add c.2)

/-- `positive` and `negative` before they are rounded. -/
def channels (contributions : List (PreferenceEvent × String)) :
    OrderedDict String Float64 × OrderedDict String Float64 :=
  contributions.foldl (contribute exp2 settings referenceAt) ([], [])

end Weights

/-- `_rounded_channel(channel)`. -/
def roundedChannel (channel : OrderedDict String Float64) : OrderedDict String Float64 :=
  ((stableSort (compareBy compare Prod.fst) channel).map fun entry =>
    (entry.1, entry.2.roundTo 10)).filter fun entry =>
      .finite (nearestDouble (1 / 10 ^ 12)) < entry.2.abs ∧ .finite 0 < entry.2

/-- `build_preference_vector_v2(events, …)`; the error is the text of its `ValueError`. -/
def buildPreferenceVectorV2 (exp2 : ℚ → ℚ) (events : List PreferenceEvent)
    (referenceAt : Option Instant) (now : Instant) (settings : Settings) (qualifiedReadMs : Int) :
    Except String (Payload Float64) :=
  if notPositive settings.preferenceHalfLifeHours ∨ notPositive settings.preferenceChannelBound then
    .error "half_life_hours and channel_bound must be positive"
  else
    let left := contributions (replay events referenceAt now qualifiedReadMs)
    let reference := referenceAtOf events referenceAt now
    let c := channels exp2 settings reference left
    .ok {
      schemaVersion := preferenceSchemaV2
      positive := roundedChannel c.1
      negative := roundedChannel c.2
      referenceAt := reference
      sourceEventCount := left.length }

/-! ### Finite settings -/

section Finite

variable {exp2 : ℚ → ℚ} {halfLifeHours channelBound : ℚ} {referenceAt : Instant}

/-- The channels of `Preference.Vector`, as doubles. -/
def ofChannels (c : Channels) : OrderedDict String Float64 × OrderedDict String Float64 :=
  (c.positive.map (Prod.map id Float64.finite), c.negative.map (Prod.map id Float64.finite))

theorem decayed_of_finite (contribution : PreferenceEvent × String) :
    decayed exp2 ⟨.finite halfLifeHours, .finite channelBound⟩ referenceAt contribution
      = .finite (Preference.decayed exp2 halfLifeHours referenceAt contribution) := rfl

theorem share_of_finite (contribution : PreferenceEvent × String) :
    share exp2 ⟨.finite halfLifeHours, .finite channelBound⟩ referenceAt contribution
      = .finite (Preference.share exp2 halfLifeHours referenceAt contribution) := rfl

theorem addShare_of_finite (amount : ℚ) (channel : OrderedDict String ℚ) (topic : String) :
    addShare ⟨.finite halfLifeHours, .finite channelBound⟩ (.finite amount)
        (channel.map (Prod.map id Float64.finite)) topic
      = (Preference.addShare channelBound amount channel topic).map (Prod.map id Float64.finite) := by
  unfold addShare Preference.addShare
  rw [OrderedDict.map_set, OrderedDict.get_map_value]
  have hmin : ∀ a b : ℚ, Float64.minOf (.finite a) (.finite b) = .finite (min a b) := by
    intro a b
    unfold Float64.minOf
    by_cases hlt : b < a
    · rw [if_pos (Float64.finite_lt_finite.mpr hlt), min_eq_right hlt.le]
    · rw [if_neg (fun h => hlt (Float64.finite_lt_finite.mp h)), min_eq_left (not_lt.mp hlt)]
  cases channel.get topic with
  | none =>
    dsimp only [Option.map_none, Option.getD_none, Float64.add]
    rw [hmin]
  | some value =>
    dsimp only [Option.map_some, Option.getD_some, Float64.add]
    rw [hmin]

theorem foldl_addShare_of_finite (amount : ℚ) (topics : List String)
    (channel : OrderedDict String ℚ) :
    topics.foldl (addShare ⟨.finite halfLifeHours, .finite channelBound⟩ (.finite amount))
        (channel.map (Prod.map id Float64.finite))
      = (topics.foldl (Preference.addShare channelBound amount) channel).map
        (Prod.map id Float64.finite) := by
  induction topics generalizing channel with
  | nil => rfl
  | cons topic topics ih => rw [List.foldl_cons, List.foldl_cons, addShare_of_finite, ih]

theorem contribute_of_finite (c : Channels) (contribution : PreferenceEvent × String) :
    contribute exp2 ⟨.finite halfLifeHours, .finite channelBound⟩ referenceAt (ofChannels c)
        contribution
      = ofChannels (Preference.contribute exp2 halfLifeHours channelBound referenceAt c
        contribution) := by
  unfold contribute Preference.contribute
  rw [decayed_of_finite, share_of_finite]
  dsimp only [ofChannels]
  by_cases hsign : 0 < Preference.decayed exp2 halfLifeHours referenceAt contribution
  · rw [if_pos (Float64.finite_lt_finite.mpr hsign), if_pos hsign, foldl_addShare_of_finite]
  · rw [if_neg (fun h => hsign (Float64.finite_lt_finite.mp h)), if_neg hsign,
      foldl_addShare_of_finite]

theorem channels_of_finite (left : List (PreferenceEvent × String)) :
    channels exp2 ⟨.finite halfLifeHours, .finite channelBound⟩ referenceAt left
      = ofChannels (Preference.channels exp2 halfLifeHours channelBound referenceAt left) := by
  unfold channels Preference.channels
  induction left using List.reverseRecOn with
  | nil => rfl
  | append_singleton left contribution ih =>
    rw [List.foldl_append, List.foldl_append, ih]
    exact contribute_of_finite _ _

theorem roundedChannel_of_finite (channel : OrderedDict String ℚ) :
    roundedChannel (channel.map (Prod.map id Float64.finite))
      = (Preference.roundedChannel channel).map (Prod.map id Float64.finite) := by
  unfold roundedChannel Preference.roundedChannel
  rw [Lib.stableSort_map, List.map_map, List.filter_map, List.filter_map, List.map_map]
  rfl

/-- **Finite settings** are those of `Preference.Vector`. -/
theorem build_of_finite {events : List PreferenceEvent} {referenceAt : Option Instant} {now : Instant}
    {qualifiedReadMs : Int} :
    buildPreferenceVectorV2 exp2 events referenceAt now
        ⟨.finite halfLifeHours, .finite channelBound⟩ qualifiedReadMs
      = (Preference.buildPreferenceVectorV2 exp2 events referenceAt now halfLifeHours channelBound
        qualifiedReadMs).map fun v =>
          Payload.map Float64.finite ⟨v.schemaVersion, v.positive, v.negative, v.referenceAt,
            v.sourceEventCount⟩ := by
  unfold buildPreferenceVectorV2 Preference.buildPreferenceVectorV2
  dsimp only
  have hpositive : notPositive (.finite halfLifeHours) ∨ notPositive (.finite channelBound)
      ↔ halfLifeHours ≤ 0 ∨ channelBound ≤ 0 := Iff.rfl
  by_cases hraises : halfLifeHours ≤ 0 ∨ channelBound ≤ 0
  · rw [if_pos (hpositive.mpr hraises), if_pos hraises]
    rfl
  · rw [if_neg (fun h => hraises (hpositive.mp h)), if_neg hraises, channels_of_finite]
    dsimp only [ofChannels]
    rw [roundedChannel_of_finite, roundedChannel_of_finite]
    rfl

end Finite

/-! ### The values of the channels -/

section Values

variable {exp2 : ℚ → ℚ} {settings : Settings} {referenceAt : Instant}

theorem nonneg_share (contribution : PreferenceEvent × String) :
    (share exp2 settings referenceAt contribution).Nonneg :=
  (Float64.nonneg_abs _).div (Nat.cast_nonneg _)

/-- What every value has: what `min(channel_bound, x)` has, of any `x` that is not below zero. -/
structure Kept (settings : Settings) (P : Float64 → Prop) : Prop where
  nonneg : ∀ x, P x → x.Nonneg
  minOf : ∀ x : Float64, x.Nonneg → P (.minOf settings.preferenceChannelBound x)

variable {P : Float64 → Prop}

theorem Kept.addShare (hkept : Kept settings P) {amount : Float64} (hamount : amount.Nonneg)
    {channel : OrderedDict String Float64} (h : ∀ entry ∈ channel, P entry.2) (topic : String) :
    ∀ entry ∈ addShare settings amount channel topic, P entry.2 := by
  intro entry hentry
  rcases OrderedDict.mem_set hentry with hentry | rfl
  · exact h entry hentry
  · refine hkept.minOf _ (Float64.Nonneg.add ?_ hamount)
    cases hget : channel.get topic with
    | none => exact le_refl (0 : ℚ)
    | some value => exact hkept.nonneg value (h _ (OrderedDict.mem_of_get hget))

theorem Kept.foldl_addShare (hkept : Kept settings P) {amount : Float64} (hamount : amount.Nonneg)
    (topics : List String) {channel : OrderedDict String Float64}
    (h : ∀ entry ∈ channel, P entry.2) :
    ∀ entry ∈ topics.foldl (AnySettings.addShare settings amount) channel, P entry.2 := by
  induction topics generalizing channel with
  | nil => exact h
  | cons topic topics ih => exact ih (hkept.addShare hamount h topic)

/-- The keys of a dictionary stay apart. -/
theorem nodup_foldl_addShare (amount : Float64) (topics : List String)
    {channel : OrderedDict String Float64} (h : (channel.map Prod.fst).Nodup) :
    ((topics.foldl (addShare settings amount) channel).map Prod.fst).Nodup := by
  induction topics generalizing channel with
  | nil => exact h
  | cons topic topics ih => exact ih (OrderedDict.nodup_set h _ _)

/-- **The values of the channels**, before they are rounded, and their topics. -/
theorem Kept.channels (hkept : Kept settings P) (exp2 : ℚ → ℚ) (referenceAt : Instant)
    (left : List (PreferenceEvent × String)) :
    ((∀ entry ∈ (channels exp2 settings referenceAt left).1, P entry.2)
        ∧ ((channels exp2 settings referenceAt left).1.map Prod.fst).Nodup)
      ∧ (∀ entry ∈ (channels exp2 settings referenceAt left).2, P entry.2)
        ∧ ((channels exp2 settings referenceAt left).2.map Prod.fst).Nodup := by
  unfold AnySettings.channels
  induction left using List.reverseRecOn with
  | nil => exact ⟨⟨nofun, List.nodup_nil⟩, nofun, List.nodup_nil⟩
  | append_singleton left contribution ih =>
    rw [List.foldl_append, List.foldl_cons, List.foldl_nil]
    obtain ⟨⟨hpositive, hnodup⟩, hnegative, hnodup'⟩ := ih
    have hamount : (share exp2 settings referenceAt contribution).Nonneg := nonneg_share contribution
    unfold contribute
    dsimp only
    split
    · exact ⟨⟨hkept.foldl_addShare hamount _ hpositive, nodup_foldl_addShare _ _ hnodup⟩, hnegative,
        hnodup'⟩
    · exact ⟨⟨hpositive, hnodup⟩, hkept.foldl_addShare hamount _ hnegative,
        nodup_foldl_addShare _ _ hnodup'⟩

/-- Under a finite bound every value is finite and in `[0, bound]`. -/
theorem kept_finite {bound : ℚ} (hbound : settings.preferenceChannelBound = .finite bound)
    (hpositive : 0 ≤ bound) : Kept settings fun x => ∃ q, x = .finite q ∧ 0 ≤ q ∧ q ≤ bound where
  nonneg x h := by
    obtain ⟨q, rfl, hq, -⟩ := h
    exact hq
  minOf x hx := by
    rw [hbound]
    exact Float64.minOf_finite hpositive hx

/-- Under a bound that is not a number no value is one. -/
theorem kept_nan (hbound : settings.preferenceChannelBound = .nan) :
    Kept settings fun x => x = .nan where
  nonneg x h := by
    subst h
    trivial
  minOf x hx := by
    rw [hbound]
    exact Float64.minOf_nan x

/-! ### The values that are written -/

theorem mem_roundedChannel {channel : OrderedDict String Float64} {entry : String × Float64}
    (h : entry ∈ roundedChannel channel) : ∃ x, (entry.1, x) ∈ channel
      ∧ entry.2 = x.roundTo 10 ∧ .finite 0 < entry.2 := by
  obtain ⟨hmem, hkeep⟩ := List.mem_filter.mp h
  obtain ⟨e, he, rfl⟩ := List.mem_map.mp hmem
  exact ⟨e.2, Lib.mem_stableSort.mp he, rfl, (of_decide_eq_true hkeep).2⟩

theorem nodup_roundedChannel {channel : OrderedDict String Float64}
    (h : (channel.map Prod.fst).Nodup) : ((roundedChannel channel).map Prod.fst).Nodup := by
  unfold roundedChannel
  refine List.Nodup.sublist (List.filter_sublist.map _) ?_
  rw [List.map_map]
  exact ((Lib.stableSort_perm _ channel).map Prod.fst).nodup_iff.mpr h

/-- Under a finite bound: positive numbers up to the rounded bound. -/
theorem roundedChannel_of_finite_bound {bound : ℚ} {channel : OrderedDict String Float64}
    (h : ∀ entry ∈ channel, ∃ q, entry.2 = .finite q ∧ 0 ≤ q ∧ q ≤ bound) :
    ∀ entry ∈ roundedChannel channel, ∃ q, entry.2 = .finite q ∧ Python.IsDouble q ∧ 0 ≤ q
      ∧ q ≤ roundDigits 10 bound := by
  intro entry hentry
  obtain ⟨x, hmem, hround, hpositive⟩ := mem_roundedChannel hentry
  obtain ⟨q, rfl, -, hle⟩ := h _ hmem
  rw [hround] at hpositive ⊢
  refine ⟨roundDigits 10 q, rfl, Python.isDouble_nearestDouble _, ?_, Python.roundDigits_mono hle⟩
  exact (Float64.finite_lt_finite.mp hpositive).le

/-- Under a bound that is not a number nothing is written. -/
theorem roundedChannel_of_nan {channel : OrderedDict String Float64}
    (h : ∀ entry ∈ channel, entry.2 = .nan) : roundedChannel channel = [] := by
  rw [List.eq_nil_iff_forall_not_mem]
  intro entry hentry
  obtain ⟨x, hmem, hround, hpositive⟩ := mem_roundedChannel hentry
  obtain rfl := h _ hmem
  rw [hround] at hpositive
  cases hpositive

end Values

end Oecophylla.Preference.AnySettings
