import Oecophylla.Preference.AnySettings
import Mathlib.Data.List.Dedup

namespace Oecophylla.Preference

open AnySettings (Payload)
open Lib (OrderedDict compareBy stableSort)
open Oecophylla.Python (IsDouble nearestDouble roundDigits)

/-!
# The blended vector — `recommendation_api/app/db.py`, `merge_preference_vector_v2`

The channels of a stored vector are projected to the time of serving, weighted against each other
and blended with the declared topics.

* `Summation` — `sum(values)` of doubles that are not negative;
* `BlendSettings` — the settings of the blend;
* `numericChannel`, `normalize` — `_numeric_channel` and `_normalize`;
* `behavior`, `mergePreferenceVectorV2` — the blend;
* `normalize_le`, `coefficients_le` — the parts are at most about 1, and so are their weights;
* `merge_bounded` — every value is in `[-1, 1]`.
-/

/-- `sum(values)`.  Some builds add up from the left, others compensate for what rounding loses: the
    sum is at least each of its summands, up to one part in `2 ^ 40`. -/
structure Summation where
  sum : List ℚ → ℚ
  covers : ∀ l, (∀ x ∈ l, IsDouble x ∧ 0 ≤ x) →
    0 ≤ sum l ∧ ∀ x ∈ l, x ≤ sum l * (1 + 2 ^ (-40 : Int))

/-- Adding up from the left. -/
def leftSum (l : List ℚ) : ℚ := l.foldl (fun total x => nearestDouble (total + x)) 0

/-- It is exactly at least each summand. -/
theorem leftSum_covers (l : List ℚ) (h : ∀ x ∈ l, IsDouble x ∧ 0 ≤ x) :
    (IsDouble (leftSum l) ∧ 0 ≤ leftSum l) ∧ ∀ x ∈ l, x ≤ leftSum l := by
  induction l using List.reverseRecOn with
  | nil => exact ⟨⟨Python.nearestDouble_zero, le_refl 0⟩, nofun⟩
  | append_singleton l x ih =>
    obtain ⟨⟨hdouble, hnonneg⟩, hle⟩ := ih fun y hy => h y (List.mem_append_left _ hy)
    obtain ⟨hx, hx0⟩ := h x (by simp)
    have hstep : leftSum (l ++ [x]) = nearestDouble (leftSum l + x) := by
      unfold leftSum
      rw [List.foldl_append, List.foldl_cons, List.foldl_nil]
    rw [hstep]
    refine ⟨⟨Python.isDouble_nearestDouble _, Python.nearestDouble_nonneg (add_nonneg hnonneg hx0)⟩,
      fun y hy => ?_⟩
    rcases List.mem_append.mp hy with hy | hy
    · exact (hle y hy).trans (hdouble.le_nearestDouble (le_add_of_nonneg_right hx0))
    · rw [List.mem_singleton.mp hy]
      exact hx.le_nearestDouble (le_add_of_nonneg_left hnonneg)

/-- The plain summation. -/
def Summation.plain : Summation where
  sum := leftSum
  covers l h := by
    obtain ⟨⟨-, hnonneg⟩, hle⟩ := leftSum_covers l h
    have hpart : 0 ≤ leftSum l * 2 ^ (-40 : Int) := mul_nonneg hnonneg (by norm_num)
    exact ⟨hnonneg, fun x hx => by linarith [hle x hx]⟩

/-- The settings of the blend: `preference_half_life_hours` and so on.  The coefficients are
    doubles. -/
structure BlendSettings where
  halfLifeHours : ℚ
  behaviorCoefficient : ℚ
  declaredCoefficient : ℚ
  evidenceSaturation : ℚ
  behavior_isDouble : IsDouble behaviorCoefficient
  declared_isDouble : IsDouble declaredCoefficient

/-- `_numeric_channel(value)`. -/
def numericChannel (channel : OrderedDict String ℚ) : Except String (OrderedDict String ℚ) :=
  if ∃ entry ∈ channel, entry.2 < 0 ∨ 10 < entry.2 then
    .error "preference channel value out of bounds"
  else .ok channel

section Merge

variable (exp2 : ℚ → ℚ) (sums : Summation)

/-- `_normalize(channel)`. -/
def normalize (channel : OrderedDict String ℚ) : OrderedDict String ℚ :=
  let total := sums.sum (channel.map Prod.snd)
  if 0 < total then channel.map fun entry => (entry.1, nearestDouble (entry.2 / total)) else []

/-- `sorted({topic for topic in declared_topics if topic})`, with a weight for each. -/
def declaredNorm (declaredTopics : List String) : OrderedDict String ℚ :=
  let declared := stableSort compare (declaredTopics.filter fun topic => topic ≠ "").dedup
  declared.map fun topic => (topic, nearestDouble (1 / declared.length))

/-- `{k: v * factor for k, v in channel.items()}`. -/
def project (factor : ℚ) (channel : OrderedDict String ℚ) : OrderedDict String ℚ :=
  channel.map fun entry => (entry.1, nearestDouble (entry.2 * factor))

/-- `min(1.0, evidence / evidence_saturation)`. -/
def confidenceOf (evidenceSaturation : ℚ) (positive negative : OrderedDict String ℚ) : ℚ :=
  let evidence := max (sums.sum (positive.map Prod.snd)) (sums.sum (negative.map Prod.snd))
  min 1 (nearestDouble (evidence / evidenceSaturation))

/-- `for topic, value in norm.items(): merged[topic] = merged.get(topic, 0.0) + weight * value`. -/
def addShares (weight : ℚ) (merged norm : OrderedDict String ℚ) : OrderedDict String ℚ :=
  OrderedDict.combine (fun old value => nearestDouble (old + nearestDouble (weight * value))) 0 merged
    norm

/-- `for topic, value in norm.items(): merged[topic] = merged.get(topic, 0.0) - weight * value`. -/
def subtractShares (weight : ℚ) (merged norm : OrderedDict String ℚ) : OrderedDict String ℚ :=
  OrderedDict.combine (fun old value => nearestDouble (old - nearestDouble (weight * value))) 0 merged
    norm

/-- The three loops: `weight` is `behavior_coefficient * confidence`. -/
def blend (weight declaredCoefficient : ℚ)
    (positiveNorm negativeNorm declaredNorm : OrderedDict String ℚ) : OrderedDict String ℚ :=
  addShares declaredCoefficient
    (subtractShares weight (addShares weight [] positiveNorm) negativeNorm) declaredNorm

/-- `merge_preference_vector_v2(payload, declared_topics, at=…, …)`; the error is the text of its
    `ValueError`. -/
def mergePreferenceVectorV2 (payload : Payload ℚ) (declaredTopics : List String) (servingAt : Instant)
    (settings : BlendSettings) : Except String (OrderedDict String ℚ) := do
  if payload.schemaVersion ≠ preferenceSchemaV2 then throw "unsupported preference schema"
  if settings.halfLifeHours ≤ 0 ∨ settings.evidenceSaturation ≤ 0 then
    throw "decay and saturation values must be positive"
  if settings.behaviorCoefficient < 0 ∨ settings.declaredCoefficient < 0 then
    throw "blend coefficients must be non-negative"
  let factor := exp2 (nearestDouble (-ageHours servingAt payload.referenceAt / settings.halfLifeHours))
  let positive := project factor (← numericChannel payload.positive)
  let negative := project factor (← numericChannel payload.negative)
  let confidence := confidenceOf sums settings.evidenceSaturation positive negative
  let coefficientTotal := nearestDouble (settings.behaviorCoefficient + settings.declaredCoefficient)
  if coefficientTotal ≤ 0 then return []
  let behaviorCoefficient := nearestDouble (settings.behaviorCoefficient / coefficientTotal)
  let declaredCoefficient := nearestDouble (settings.declaredCoefficient / coefficientTotal)
  let merged := blend (nearestDouble (behaviorCoefficient * confidence)) declaredCoefficient
    (normalize sums positive) (normalize sums negative) (declaredNorm declaredTopics)
  return ((stableSort (compareBy compare Prod.fst) merged).filter fun entry => entry.2 ≠ 0).map
    fun entry => (entry.1, roundDigits 10 entry.2)

end Merge

/-! ### The parts -/

section Parts

variable {exp2 : ℚ → ℚ} {sums : Summation} {channel : OrderedDict String ℚ}

theorem isDouble_one : IsDouble 1 := by
  have h := Python.isDouble_natCast (n := 1) (by norm_num)
  rwa [Nat.cast_one] at h

theorem isDouble_one_add (k : Nat) (hk : k ≤ 52) : IsDouble (1 + 2 ^ (-(k : Int))) := by
  have hmantissa : |(2 : Int) ^ k + 1| ≤ 2 ^ 53 := by
    have hpow : (2 : Int) ^ k ≤ 2 ^ 52 := pow_le_pow_right₀ (by norm_num) hk
    have hpos : (0 : Int) < 2 ^ k := pow_pos (by norm_num) k
    rw [abs_of_pos (by omega)]
    omega
  have h := Python.isDouble_of_mantissa (n := 2 ^ k + 1) (e := -(k : Int)) hmantissa (by omega)
  have heq : (((2 : Int) ^ k + 1 : Int) : ℚ) * 2 ^ (-(k : Int)) = 1 + 2 ^ (-(k : Int)) := by
    push_cast
    rw [add_mul, one_mul, zpow_neg, zpow_natCast, mul_inv_cancel₀ (pow_ne_zero k (by norm_num))]
  rwa [heq] at h

/-- The values of a channel. -/
def Doubles (channel : OrderedDict String ℚ) : Prop := ∀ entry ∈ channel, IsDouble entry.2 ∧ 0 ≤ entry.2

theorem Doubles.values (h : Doubles channel) : ∀ x ∈ channel.map Prod.snd, IsDouble x ∧ 0 ≤ x := by
  intro x hx
  obtain ⟨entry, hentry, rfl⟩ := List.mem_map.mp hx
  exact h entry hentry

theorem doubles_project {factor : ℚ} (hfactor : 0 ≤ factor) (h : Doubles channel) :
    Doubles (project factor channel) := by
  intro entry hentry
  obtain ⟨e, he, rfl⟩ := List.mem_map.mp hentry
  exact ⟨Python.isDouble_nearestDouble _,
    Python.nearestDouble_nonneg (mul_nonneg (h e he).2 hfactor)⟩

/-- **A share of a channel** is at most about 1. -/
theorem normalize_le (sums : Summation) (h : Doubles channel) : ∀ entry ∈ normalize sums channel,
    0 ≤ entry.2 ∧ entry.2 ≤ 1 + 2 ^ (-40 : Int) := by
  intro entry hentry
  unfold normalize at hentry
  dsimp only at hentry
  split at hentry
  · next htotal =>
    obtain ⟨e, he, rfl⟩ := List.mem_map.mp hentry
    have hcovers := (sums.covers _ h.values).2 e.2 (List.mem_map_of_mem he)
    refine ⟨Python.nearestDouble_nonneg (div_nonneg (h e he).2 htotal.le), ?_⟩
    refine (isDouble_one_add 40 (by norm_num)).nearestDouble_le ?_
    rw [div_le_iff₀ htotal, mul_comm]
    exact hcovers
  · cases hentry

theorem declaredNorm_le (declaredTopics : List String) : ∀ entry ∈ declaredNorm declaredTopics,
    0 ≤ entry.2 ∧ entry.2 ≤ 1 := by
  intro entry hentry
  obtain ⟨topic, htopic, rfl⟩ := List.mem_map.mp hentry
  refine ⟨Python.nearestDouble_nonneg (by positivity), isDouble_one.nearestDouble_le ?_⟩
  have hlength : (1 : ℚ) ≤ (stableSort compare
      (declaredTopics.filter fun topic => topic ≠ "").dedup).length := by
    exact_mod_cast List.length_pos_of_mem htopic
  exact div_le_one_of_le₀ hlength (zero_le_one.trans hlength)

theorem confidenceOf_mem (sums : Summation) {evidenceSaturation : ℚ} (hsaturation : 0 < evidenceSaturation)
    {positive : OrderedDict String ℚ} (hpositive : Doubles positive) (negative : OrderedDict String ℚ) :
    0 ≤ confidenceOf sums evidenceSaturation positive negative
      ∧ confidenceOf sums evidenceSaturation positive negative ≤ 1 := by
  have hevidence := (sums.covers _ hpositive.values).1
  refine ⟨le_min zero_le_one (Python.nearestDouble_nonneg (div_nonneg ?_ hsaturation.le)), min_le_left _ _⟩
  exact hevidence.trans (le_max_left _ _)

/-- **The coefficients** add up to about 1 at most. -/
theorem coefficients_le {b d : ℚ} (hb : IsDouble b) (hd : IsDouble d) (hb0 : 0 ≤ b) (hd0 : 0 ≤ d)
    (htotal : 0 < nearestDouble (b + d)) :
    nearestDouble (b / nearestDouble (b + d)) ≤ 1
      ∧ nearestDouble (b / nearestDouble (b + d)) + nearestDouble (d / nearestDouble (b + d))
        ≤ 1 + 2 ^ (-51 : Int) := by
  have hbT : b ≤ nearestDouble (b + d) := hb.le_nearestDouble (le_add_of_nonneg_right hd0)
  have hdT : d ≤ nearestDouble (b + d) := hd.le_nearestDouble (le_add_of_nonneg_left hb0)
  have hb1 : b / nearestDouble (b + d) ≤ 1 := div_le_one_of_le₀ hbT htotal.le
  have hd1 : d / nearestDouble (b + d) ≤ 1 := div_le_one_of_le₀ hdT htotal.le
  refine ⟨isDouble_one.nearestDouble_le hb1, ?_⟩
  have hbround := Python.nearestDouble_le_add (div_nonneg hb0 htotal.le) (hb1.trans_lt one_lt_two)
  have hdround := Python.nearestDouble_le_add (div_nonneg hd0 htotal.le) (hd1.trans_lt one_lt_two)
  have hsum : b / nearestDouble (b + d) + d / nearestDouble (b + d) ≤ 1 + 2 ^ (-52 : Int) := by
    rw [← add_div, div_le_iff₀ htotal]
    have hexact := Python.sub_le_nearestDouble_add hb hd hb0 hd0
    have hsmall : (1 : ℚ) ≤ (1 + 2 ^ (-52 : Int)) * (1 - 2 ^ (-53 : Int)) := by norm_num
    have hnonneg : 0 ≤ b + d := add_nonneg hb0 hd0
    calc b + d = (b + d) * 1 := (mul_one _).symm
      _ ≤ (b + d) * ((1 + 2 ^ (-52 : Int)) * (1 - 2 ^ (-53 : Int))) :=
        mul_le_mul_of_nonneg_left hsmall hnonneg
      _ = (1 + 2 ^ (-52 : Int)) * ((b + d) * (1 - 2 ^ (-53 : Int))) := by ring
      _ ≤ (1 + 2 ^ (-52 : Int)) * nearestDouble (b + d) :=
        mul_le_mul_of_nonneg_left hexact (by norm_num)
  have hpowers : (2 : ℚ) ^ (-51 : Int) = 2 ^ (-52 : Int) + 2 * 2 ^ (-53 : Int) := by norm_num
  linarith

end Parts

/-! ### The blend -/

section Blend

variable {exp2 : ℚ → ℚ} {sums : Summation}

theorem nodup_project {factor : ℚ} {channel : OrderedDict String ℚ}
    (h : (channel.map Prod.fst).Nodup) : ((project factor channel).map Prod.fst).Nodup := by
  unfold project
  rw [List.map_map]
  exact h

theorem nodup_normalize {channel : OrderedDict String ℚ} (h : (channel.map Prod.fst).Nodup) :
    ((normalize sums channel).map Prod.fst).Nodup := by
  unfold normalize
  dsimp only
  split
  · rw [List.map_map]
    exact h
  · exact List.nodup_nil

theorem nodup_declaredNorm (declaredTopics : List String) :
    ((declaredNorm declaredTopics).map Prod.fst).Nodup := by
  unfold declaredNorm
  dsimp only
  rw [List.map_map]
  refine ((Lib.stableSort_perm compare _).map _).nodup_iff.mpr ?_
  exact (List.map_id _).symm ▸ List.nodup_dedup _

/-- The weights of the three loops: `behavior` is the coefficient before it is multiplied by the
    confidence. -/
structure Weights (weight behavior declared : ℚ) : Prop where
  nonneg : 0 ≤ weight
  le_behavior : weight ≤ behavior
  behavior_le_one : behavior ≤ 1
  declared_isDouble : IsDouble declared
  declared_nonneg : 0 ≤ declared
  sum_le : behavior + declared ≤ 1 + 2 ^ (-51 : Int)

variable {weight behavior declared value x : ℚ}

/-- What a value is bounded by before it is rounded to ten digits. -/
theorem isDouble_bound : IsDouble (1 + 2 ^ (-39 : Int)) := isDouble_one_add 39 (by norm_num)

/-- After the first loop. -/
def AfterPositive (behavior x : ℚ) : Prop :=
  IsDouble x ∧ 0 ≤ x ∧ x ≤ behavior + 2 ^ (-40 : Int) + 2 ^ (-53 : Int)

/-- After the second loop. -/
def AfterNegative (behavior x : ℚ) : Prop :=
  -(1 + 2 ^ (-39 : Int)) ≤ x ∧ x ≤ behavior + 2 ^ (-40 : Int) + 2 ^ (-53 : Int)

/-- After the third loop. -/
def AfterDeclared (x : ℚ) : Prop := -(1 + 2 ^ (-39 : Int)) ≤ x ∧ x ≤ 1 + 2 ^ (-39 : Int)

/-- A share of a channel, with its weight. -/
theorem Weights.share (h : Weights weight behavior declared)
    (hvalue : 0 ≤ value ∧ value ≤ 1 + 2 ^ (-40 : Int)) :
    AfterPositive behavior (nearestDouble (weight * value)) := by
  obtain ⟨hvalue, hle⟩ := hvalue
  have hbehavior : 0 ≤ behavior := h.nonneg.trans h.le_behavior
  have hproduct : weight * value ≤ behavior + 2 ^ (-40 : Int) := by
    have hwhole : weight * value ≤ behavior * (1 + 2 ^ (-40 : Int)) :=
      mul_le_mul h.le_behavior hle hvalue hbehavior
    have hpart : behavior * 2 ^ (-40 : Int) ≤ 1 * 2 ^ (-40 : Int) :=
      mul_le_mul_of_nonneg_right h.behavior_le_one (by norm_num)
    linarith
  have hnonneg : 0 ≤ weight * value := mul_nonneg h.nonneg hvalue
  refine ⟨Python.isDouble_nearestDouble _, Python.nearestDouble_nonneg hnonneg, ?_⟩
  have hpow : (2 : ℚ) ^ (-40 : Int) < 1 := by norm_num
  have hround := Python.nearestDouble_le_add hnonneg (by linarith [h.behavior_le_one])
  linarith

theorem Weights.afterPositive_zero (h : Weights weight behavior declared) :
    AfterPositive behavior 0 := by
  have hbehavior : 0 ≤ behavior := h.nonneg.trans h.le_behavior
  exact ⟨Python.nearestDouble_zero, le_rfl, by positivity⟩

theorem AfterPositive.afterNegative (h : AfterPositive behavior x) : AfterNegative behavior x := by
  have hpow : (0 : ℚ) < 2 ^ (-39 : Int) := by norm_num
  exact ⟨by linarith [h.2.1], h.2.2⟩

theorem Weights.bound_le (h : Weights weight behavior declared) :
    behavior + 2 ^ (-40 : Int) + 2 ^ (-53 : Int) + declared ≤ 1 + 2 ^ (-39 : Int) := by
  have hpowers : (2 : ℚ) ^ (-51 : Int) + 2 ^ (-40 : Int) + 2 ^ (-53 : Int) ≤ 2 ^ (-39 : Int) := by
    norm_num
  linarith [h.sum_le]

/-- The second loop takes a share away. -/
theorem Weights.subtract (h : Weights weight behavior declared) (hx : AfterPositive behavior x)
    (hvalue : 0 ≤ value ∧ value ≤ 1 + 2 ^ (-40 : Int)) :
    AfterNegative behavior (nearestDouble (x - nearestDouble (weight * value))) := by
  obtain ⟨-, hshare, hle⟩ := h.share hvalue
  constructor
  · have hbound := h.bound_le
    exact isDouble_bound.neg.le_nearestDouble (by linarith [hx.2.1, h.declared_nonneg])
  · exact (hx.1.nearestDouble_le (by linarith)).trans hx.2.2

/-- The third loop adds a declared topic. -/
theorem Weights.addDeclared (h : Weights weight behavior declared) (hx : AfterNegative behavior x)
    (hvalue : 0 ≤ value ∧ value ≤ 1) :
    AfterDeclared (nearestDouble (x + nearestDouble (declared * value))) := by
  have hpart : 0 ≤ nearestDouble (declared * value) :=
    Python.nearestDouble_nonneg (mul_nonneg h.declared_nonneg hvalue.1)
  have hle : nearestDouble (declared * value) ≤ declared :=
    h.declared_isDouble.nearestDouble_le (mul_le_of_le_one_right h.declared_nonneg hvalue.2)
  constructor
  · exact isDouble_bound.neg.le_nearestDouble (by linarith [hx.1])
  · exact isDouble_bound.nearestDouble_le (by linarith [hx.2, h.bound_le])

theorem Weights.afterDeclared (h : Weights weight behavior declared) (hx : AfterNegative behavior x) :
    AfterDeclared x := ⟨hx.1, by linarith [hx.2, h.bound_le, h.declared_nonneg]⟩

section Loops

variable {norm merged : OrderedDict String ℚ} {k : String}

theorem Weights.getD_addShares (h : Weights weight behavior declared)
    (hnorm : ∀ entry ∈ norm, 0 ≤ entry.2 ∧ entry.2 ≤ 1 + 2 ^ (-40 : Int))
    (hnodup : (norm.map Prod.fst).Nodup) :
    AfterPositive behavior (((addShares weight [] norm).get k).getD 0) := by
  unfold addShares
  rw [OrderedDict.get_combine _ _ hnodup]
  cases hget : OrderedDict.get norm k with
  | none => exact h.afterPositive_zero
  | some value =>
    dsimp only [OrderedDict.get_nil, Option.getD_none, Option.getD_some]
    rw [zero_add, Python.isDouble_nearestDouble]
    exact h.share (hnorm _ (OrderedDict.mem_of_get hget))

theorem Weights.getD_subtractShares (h : Weights weight behavior declared)
    (hnorm : ∀ entry ∈ norm, 0 ≤ entry.2 ∧ entry.2 ≤ 1 + 2 ^ (-40 : Int))
    (hnodup : (norm.map Prod.fst).Nodup) (hmerged : AfterPositive behavior ((merged.get k).getD 0)) :
    AfterNegative behavior (((subtractShares weight merged norm).get k).getD 0) := by
  unfold subtractShares
  rw [OrderedDict.get_combine _ _ hnodup]
  cases hget : OrderedDict.get norm k with
  | none => exact hmerged.afterNegative
  | some value => exact h.subtract hmerged (hnorm _ (OrderedDict.mem_of_get hget))

theorem Weights.getD_addDeclared (h : Weights weight behavior declared)
    (hnorm : ∀ entry ∈ norm, 0 ≤ entry.2 ∧ entry.2 ≤ 1) (hnodup : (norm.map Prod.fst).Nodup)
    (hmerged : AfterNegative behavior ((merged.get k).getD 0)) :
    AfterDeclared (((addShares declared merged norm).get k).getD 0) := by
  unfold addShares
  rw [OrderedDict.get_combine _ _ hnodup]
  cases hget : OrderedDict.get norm k with
  | none => exact h.afterDeclared hmerged
  | some value => exact h.addDeclared hmerged (hnorm _ (OrderedDict.mem_of_get hget))

/-- **Every value of the blend**, loop by loop. -/
theorem Weights.blend (h : Weights weight behavior declared)
    {positiveNorm negativeNorm declaredNorm : OrderedDict String ℚ}
    (hpositive : ∀ entry ∈ positiveNorm, 0 ≤ entry.2 ∧ entry.2 ≤ 1 + 2 ^ (-40 : Int))
    (hnegative : ∀ entry ∈ negativeNorm, 0 ≤ entry.2 ∧ entry.2 ≤ 1 + 2 ^ (-40 : Int))
    (hnorm : ∀ entry ∈ declaredNorm, 0 ≤ entry.2 ∧ entry.2 ≤ 1)
    (hnodup : (positiveNorm.map Prod.fst).Nodup) (hnodup' : (negativeNorm.map Prod.fst).Nodup)
    (hnodup'' : (declaredNorm.map Prod.fst).Nodup) :
    ∀ entry ∈ Preference.blend weight declared positiveNorm negativeNorm declaredNorm,
      AfterDeclared entry.2 := by
  intro entry hentry
  have hkeys : ((Preference.blend weight declared positiveNorm negativeNorm declaredNorm).map
      Prod.fst).Nodup := by
    unfold Preference.blend addShares subtractShares
    refine OrderedDict.nodup_combine _ _ (OrderedDict.nodup_combine _ _ ?_ _) _
    exact OrderedDict.nodup_combine _ _ (d := []) List.nodup_nil _
  have hget := OrderedDict.get_of_mem hkeys hentry
  have hfirst := h.getD_addShares (k := entry.1) hpositive hnodup
  have hsecond := h.getD_subtractShares hnegative hnodup' hfirst
  have hthird := h.getD_addDeclared hnorm hnodup'' hsecond
  unfold Preference.blend at hget
  rw [hget] at hthird
  exact hthird

end Loops

theorem roundDigits_afterDeclared (h : AfterDeclared x) :
    -1 ≤ roundDigits 10 x ∧ roundDigits 10 x ≤ 1 := by
  have hone : roundDigits 10 (1 + 2 ^ (-39 : Int)) = 1 := by
    have hround : Python.roundHalfEven ((1 + 2 ^ (-39 : Int)) * 10 ^ 10) = 10 ^ 10 := by
      have hfloor : ⌊((1 + 2 ^ (-39 : Int)) * 10 ^ 10 : ℚ)⌋ = 10 ^ 10 := by
        rw [Int.floor_eq_iff]
        norm_num
      unfold Python.roundHalfEven
      dsimp only
      rw [hfloor, if_pos (by norm_num)]
    have hquotient : ((10 ^ 10 : Int) : ℚ) / 10 ^ 10 = 1 := by norm_num
    unfold roundDigits
    rw [hround, hquotient]
    exact isDouble_one
  constructor
  · have hlow := Python.roundDigits_mono (n := 10) h.1
    rwa [Python.roundDigits_neg, hone] at hlow
  · exact (Python.roundDigits_mono h.2).trans hone.le

/-- A payload that can be read: its channels have distinct topics, and doubles in `[0, 10]`. -/
structure WellFormed (payload : Payload ℚ) : Prop where
  schema : payload.schemaVersion = preferenceSchemaV2
  positive : Doubles payload.positive ∧ (∀ entry ∈ payload.positive, entry.2 ≤ 10)
    ∧ (payload.positive.map Prod.fst).Nodup
  negative : Doubles payload.negative ∧ (∀ entry ∈ payload.negative, entry.2 ≤ 10)
    ∧ (payload.negative.map Prod.fst).Nodup

theorem numericChannel_of_range {channel : OrderedDict String ℚ} (hdoubles : Doubles channel)
    (hle : ∀ entry ∈ channel, entry.2 ≤ 10) : numericChannel channel = .ok channel := by
  unfold numericChannel
  rw [if_neg]
  rintro ⟨entry, hentry, hlow | hhigh⟩
  · exact absurd hlow (not_lt.mpr (hdoubles entry hentry).2)
  · exact absurd hhigh (not_lt.mpr (hle entry hentry))

/-- The weights of the settings, with any confidence. -/
theorem weights_of_settings {b d confidence : ℚ} (hb : IsDouble b) (hd : IsDouble d) (hb0 : 0 ≤ b)
    (hd0 : 0 ≤ d) (htotal : 0 < nearestDouble (b + d)) (hconfidence : 0 ≤ confidence ∧ confidence ≤ 1) :
    Weights (nearestDouble (nearestDouble (b / nearestDouble (b + d)) * confidence))
      (nearestDouble (b / nearestDouble (b + d))) (nearestDouble (d / nearestDouble (b + d))) := by
  have hbehavior : 0 ≤ nearestDouble (b / nearestDouble (b + d)) :=
    Python.nearestDouble_nonneg (div_nonneg hb0 htotal.le)
  obtain ⟨hone, hsum⟩ := coefficients_le hb hd hb0 hd0 htotal
  exact {
    nonneg := Python.nearestDouble_nonneg (mul_nonneg hbehavior hconfidence.1)
    le_behavior := (Python.isDouble_nearestDouble _).nearestDouble_le
      (mul_le_of_le_one_right hbehavior hconfidence.2)
    behavior_le_one := hone
    declared_isDouble := Python.isDouble_nearestDouble _
    declared_nonneg := Python.nearestDouble_nonneg (div_nonneg hd0 htotal.le)
    sum_le := hsum }

/-- **The blended vector** of a payload that can be read is in `[-1, 1]`. -/
theorem merge_bounded (hexp2 : ∀ x, 0 ≤ exp2 x) {payload : Payload ℚ} (hwell : WellFormed payload)
    {declaredTopics : List String} {servingAt : Instant} {settings : BlendSettings}
    {merged : OrderedDict String ℚ}
    (h : mergePreferenceVectorV2 exp2 sums payload declaredTopics servingAt settings = .ok merged) :
    ∀ entry ∈ merged, -1 ≤ entry.2 ∧ entry.2 ≤ 1 := by
  obtain ⟨hschema, ⟨hpositive, hpositive10, hnodup⟩, hnegative, hnegative10, hnodup'⟩ := hwell
  unfold mergePreferenceVectorV2 at h
  rw [if_neg (not_not.mpr hschema)] at h
  by_cases hdecay : settings.halfLifeHours ≤ 0 ∨ settings.evidenceSaturation ≤ 0
  · rw [if_pos hdecay] at h
    cases h
  rw [if_neg hdecay] at h
  by_cases hcoefficients : settings.behaviorCoefficient < 0 ∨ settings.declaredCoefficient < 0
  · rw [if_pos hcoefficients] at h
    cases h
  rw [if_neg hcoefficients, numericChannel_of_range hpositive hpositive10,
    numericChannel_of_range hnegative hnegative10] at h
  dsimp only [bind, Except.bind, pure, Except.pure] at h
  rw [not_or, not_lt, not_lt] at hcoefficients
  rw [not_or, not_le, not_le] at hdecay
  generalize hfactor : exp2 (nearestDouble (-ageHours servingAt payload.referenceAt
    / settings.halfLifeHours)) = factor at h
  have hfactor0 : 0 ≤ factor := hfactor ▸ hexp2 _
  split at h
  · obtain rfl := Except.ok.inj h
    nofun
  · next htotal =>
    obtain rfl := Except.ok.inj h
    intro entry hentry
    obtain ⟨e, he, rfl⟩ := List.mem_map.mp hentry
    have hprojected := doubles_project hfactor0 hpositive
    have hconfidence := confidenceOf_mem sums hdecay.2 hprojected
      (project factor payload.negative)
    have hweights := weights_of_settings settings.behavior_isDouble settings.declared_isDouble
      hcoefficients.1 hcoefficients.2 (not_le.mp htotal) hconfidence
    have hblend := hweights.blend (normalize_le sums hprojected)
      (normalize_le sums (doubles_project hfactor0 hnegative)) (declaredNorm_le declaredTopics)
      (nodup_normalize (nodup_project hnodup)) (nodup_normalize (nodup_project hnodup'))
      (nodup_declaredNorm declaredTopics)
    exact roundDigits_afterDeclared
      (hblend e (Lib.mem_stableSort.mp (List.mem_filter.mp he).1))

end Blend

end Oecophylla.Preference
