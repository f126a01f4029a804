import Oecophylla.Preference.Blend

namespace Oecophylla.Preference.AnySettings

open Lib (OrderedDict)
open Oecophylla.Python (Float64 roundDigits)

/-!
# Stored v2 vectors are readable

What the worker writes must pass the `CHECK`s of `user_preference_vectors_v2` and
`_decode_v2_payload` of the recommendation API.  Both admit values from 0 to 10; the worker bounds
them by a setting.

* `Insertable` — the constraints of the table;
* `decodeV2Payload` — the decoder;
* `StoredAs` — a payload as it is read back: `jsonb` has its own order of the topics;
* `Readable` — what is to hold of a payload, up to the blended vector;
* `Settings.Safe` — the condition: the bound is 10 at most, when it is rounded as the values are;
* `clicks`, `not_insertable_clicks` — eleven clicks on one topic, under any other bound;
* `readable_iff` — everything the worker writes is readable exactly under the condition;
* `bound_twenty_refused` — the clicks under a bound of 20.

Texts of JSON are not modelled: `json.dumps` and `json.loads` keep doubles and texts, and
`isoformat` an aware timestamp.  `jsonb` has no token for what is not a finite number.
-/

/-- The JSON of the channels is one, and the `CHECK`s hold; a count is never negative. -/
def Insertable (payload : Payload Float64) : Prop :=
  payload.schemaVersion = preferenceSchemaV2
    ∧ (∀ entry ∈ payload.positive, ∃ q, entry.2 = .finite q ∧ ¬ (q < 0 ∨ 10 < q))
    ∧ ∀ entry ∈ payload.negative, ∃ q, entry.2 = .finite q ∧ ¬ (q < 0 ∨ 10 < q)

/-- `_numeric_channel(value)` does not raise. -/
def inBounds (channel : OrderedDict String Float64) : Bool :=
  channel.all fun entry => ¬ (entry.2 < .finite 0 ∨ .finite 10 < entry.2)

/-- `_decode_v2_payload(raw)`, of an object. -/
def decodeV2Payload (payload : Payload Float64) : Option (Payload Float64) :=
  if payload.schemaVersion ≠ preferenceSchemaV2 then none
  else if inBounds payload.positive ∧ inBounds payload.negative then some payload else none

/-- A payload that is read back, from Redis or from the table. -/
structure StoredAs (payload stored : Payload Float64) : Prop where
  schemaVersion : stored.schemaVersion = payload.schemaVersion
  positive : stored.positive.Perm payload.positive
  negative : stored.negative.Perm payload.negative
  referenceAt : stored.referenceAt = payload.referenceAt
  sourceEventCount : stored.sourceEventCount = payload.sourceEventCount

/-- The table admits a payload, the decoder accepts it, and its blended vector is in `[-1, 1]`. -/
def Readable (exp2 : ℚ → ℚ) (payload : Payload Float64) : Prop :=
  Insertable payload ∧ ∀ stored, StoredAs payload stored → decodeV2Payload stored = some stored
    ∧ ∃ p : Payload ℚ, stored = p.map Float64.finite
      ∧ ∀ (sums : Summation) (declaredTopics : List String) (servingAt : Instant)
          (settings : BlendSettings) (merged : OrderedDict String ℚ),
        mergePreferenceVectorV2 exp2 sums p declaredTopics servingAt settings = .ok merged →
        ∀ entry ∈ merged, -1 ≤ entry.2 ∧ entry.2 ≤ 1

/-- **The condition.**  The worker refuses the settings, or the bound is not a number (then nothing
    is written), or it is 10 at most when it is rounded to ten digits. -/
def Settings.Safe (settings : Settings) : Prop :=
  notPositive settings.preferenceHalfLifeHours ∨ notPositive settings.preferenceChannelBound
    ∨ settings.preferenceChannelBound = .nan
    ∨ ∃ bound, settings.preferenceChannelBound = .finite bound ∧ roundDigits 10 bound ≤ 10

/-! ### Safe settings -/

section Safe

variable {exp2 : ℚ → ℚ} {settings : Settings}

/-- A channel that is read: distinct topics, and doubles in `[0, 10]`. -/
def InRange (channel : OrderedDict String Float64) : Prop :=
  (∀ entry ∈ channel, ∃ q, entry.2 = .finite q ∧ Python.IsDouble q ∧ 0 ≤ q ∧ q ≤ 10)
    ∧ (channel.map Prod.fst).Nodup

theorem InRange.perm {channel stored : OrderedDict String Float64} (h : InRange channel)
    (hperm : stored.Perm channel) : InRange stored :=
  ⟨fun entry hentry => h.1 entry (hperm.mem_iff.mp hentry), (hperm.map Prod.fst).nodup_iff.mpr h.2⟩

theorem InRange.inBounds {channel : OrderedDict String Float64} (h : InRange channel) :
    inBounds channel = true := by
  refine List.all_eq_true.mpr fun entry hentry => decide_eq_true ?_
  obtain ⟨q, hq, -, hlow, hhigh⟩ := h.1 entry hentry
  rw [hq]
  rintro (hlt | hlt)
  · exact absurd (Float64.finite_lt_finite.mp hlt) (not_lt.mpr hlow)
  · exact absurd (Float64.finite_lt_finite.mp hlt) (not_lt.mpr hhigh)

/-- Its numbers. -/
theorem InRange.exists_finite {channel : OrderedDict String Float64} (h : InRange channel) :
    ∃ numbers : OrderedDict String ℚ, channel = numbers.map (Prod.map id Float64.finite)
      ∧ Doubles numbers ∧ (∀ entry ∈ numbers, entry.2 ≤ 10) ∧ (numbers.map Prod.fst).Nodup := by
  obtain ⟨hvalues, hnodup⟩ := h
  induction channel with
  | nil => exact ⟨[], rfl, nofun, nofun, List.nodup_nil⟩
  | cons entry channel ih =>
    obtain ⟨hentry, hrest⟩ := List.forall_mem_cons.mp hvalues
    obtain ⟨q, hq, hdouble, hlow, hhigh⟩ := hentry
    rw [List.map_cons, List.nodup_cons] at hnodup
    obtain ⟨numbers, rfl, hdoubles, hle, hkeys⟩ := ih hrest hnodup.2
    refine ⟨(entry.1, q) :: numbers, ?_, List.forall_mem_cons.mpr ⟨⟨hdouble, hlow⟩, hdoubles⟩,
      List.forall_mem_cons.mpr ⟨hhigh, hle⟩, ?_⟩
    · rw [List.map_cons, Prod.map_apply, ← hq]
      rfl
    · rw [List.map_cons, List.nodup_cons]
      refine ⟨fun hmem => hnodup.1 ?_, hkeys⟩
      rw [List.map_map]
      exact hmem

/-- What is in range is readable. -/
theorem readable_of_inRange (hexp2 : ∀ x, 0 ≤ exp2 x) {payload : Payload Float64}
    (hschema : payload.schemaVersion = preferenceSchemaV2) (hpositive : InRange payload.positive)
    (hnegative : InRange payload.negative) : Readable exp2 payload := by
  have hcheck : ∀ {channel : OrderedDict String Float64}, InRange channel →
      ∀ entry ∈ channel, ∃ q, entry.2 = .finite q ∧ ¬ (q < 0 ∨ 10 < q) := by
    intro channel h entry hentry
    obtain ⟨q, hq, -, hlow, hhigh⟩ := h.1 entry hentry
    exact ⟨q, hq, not_or.mpr ⟨not_lt.mpr hlow, not_lt.mpr hhigh⟩⟩
  refine ⟨⟨hschema, hcheck hpositive, hcheck hnegative⟩, fun stored hstored => ?_⟩
  have hpositive' := hpositive.perm hstored.positive
  have hnegative' := hnegative.perm hstored.negative
  have hschema' : stored.schemaVersion = preferenceSchemaV2 := hstored.schemaVersion.trans hschema
  constructor
  · unfold decodeV2Payload
    rw [if_neg (not_not.mpr hschema'), if_pos ⟨hpositive'.inBounds, hnegative'.inBounds⟩]
  · obtain ⟨positive, hp, hwellp⟩ := hpositive'.exists_finite
    obtain ⟨negative, hn, hwelln⟩ := hnegative'.exists_finite
    refine ⟨⟨stored.schemaVersion, positive, negative, stored.referenceAt, stored.sourceEventCount⟩,
      ?_, fun sums declaredTopics servingAt blendSettings merged h =>
        merge_bounded hexp2 ⟨hschema', hwellp, hwelln⟩ h⟩
    unfold Payload.map
    dsimp only
    rw [← hp, ← hn]

/-- **Safe settings** only write what is in range. -/
theorem readable_of_safe (hexp2 : ∀ x, 0 ≤ exp2 x) (hsafe : Settings.Safe settings)
    {events : List PreferenceEvent} {referenceAt : Option Instant} {now : Instant}
    {qualifiedReadMs : Int} {payload : Payload Float64}
    (h : buildPreferenceVectorV2 exp2 events referenceAt now settings qualifiedReadMs = .ok payload) :
    Readable exp2 payload := by
  unfold buildPreferenceVectorV2 at h
  split at h
  · cases h
  · next haccepted =>
    obtain rfl := Except.ok.inj h
    rw [not_or] at haccepted
    rcases hsafe with hhalf | hbound | hbound | ⟨bound, hbound, hle⟩
    · exact absurd hhalf haccepted.1
    · exact absurd hbound haccepted.2
    · obtain ⟨⟨hpositive, -⟩, hnegative, -⟩ := (kept_nan hbound).channels exp2
        (referenceAtOf events referenceAt now)
        (contributions (replay events referenceAt now qualifiedReadMs))
      have hempty : InRange [] := ⟨nofun, List.nodup_nil⟩
      refine readable_of_inRange hexp2 rfl ?_ ?_
      · dsimp only
        rw [roundedChannel_of_nan hpositive]
        exact hempty
      · dsimp only
        rw [roundedChannel_of_nan hnegative]
        exact hempty
    · have hpos : 0 < bound := by
        rw [hbound] at haccepted
        exact not_le.mp haccepted.2
      obtain ⟨⟨hpositive, hnodup⟩, hnegative, hnodup'⟩ := (kept_finite hbound hpos.le).channels exp2
        (referenceAtOf events referenceAt now)
        (contributions (replay events referenceAt now qualifiedReadMs))
      have hrange : ∀ {channel : OrderedDict String Float64},
          (∀ entry ∈ channel, ∃ q, entry.2 = .finite q ∧ 0 ≤ q ∧ q ≤ bound) →
          (channel.map Prod.fst).Nodup → InRange (roundedChannel channel) := by
        intro channel hvalues hnodup
        refine ⟨fun entry hentry => ?_, nodup_roundedChannel hnodup⟩
        obtain ⟨q, hq, hdouble, hlow, hhigh⟩ := roundedChannel_of_finite_bound hvalues entry hentry
        exact ⟨q, hq, hdouble, hlow, hhigh.trans hle⟩
      exact readable_of_inRange hexp2 rfl (hrange hpositive hnodup) (hrange hnegative hnodup')

end Safe

/-! ### Other settings -/

/-- Eleven clicks of a user on a post with one topic, at the same time. -/
def clicks : List PreferenceEvent :=
  ["a", "b", "c", "d", "e", "f", "g", "h", "i", "j", "k"].map fun id =>
    ⟨id, "p", "click", ["t"], 0, none, none, none, none, none⟩

theorem contributions_clicks :
    contributions (replay clicks none 0 10000) = clicks.map fun event => (event, "click") := by
  decide +kernel

section Unsafe

variable {exp2 : ℚ → ℚ} {settings : Settings}

/-- The value of the topic after some clicks. -/
def valueAfter (settings : Settings) (amount : Float64) : Nat → Float64
  | 0 => .finite 0
  | n + 1 => .minOf settings.preferenceChannelBound ((valueAfter settings amount n).add amount)

/-- The channel after some clicks. -/
def channelAfter (settings : Settings) (amount : Float64) : Nat → OrderedDict String Float64
  | 0 => []
  | n + 1 => [("t", valueAfter settings amount (n + 1))]

theorem addShare_channelAfter (amount : Float64) (n : Nat) :
    addShare settings amount (channelAfter settings amount n) "t"
      = channelAfter settings amount (n + 1) := by
  cases n with
  | zero => rfl
  | succ n => rfl

/-- A click at the time of the vector has its whole weight, unless the half-life is not a number. -/
theorem decayed_click (hexp2 : exp2 0 = 1) {event : PreferenceEvent} (htime : event.occurredAt = 0) :
    decayed exp2 settings 0 (event, "click")
      = if settings.preferenceHalfLifeHours = .nan then .nan else .finite 1 := by
  have hage : ageHours 0 event.occurredAt = 0 := by
    rw [htime]
    unfold ageHours
    simp
  unfold decayed
  dsimp only
  rw [hage, neg_zero]
  cases hvalue : settings.preferenceHalfLifeHours with
  | finite q =>
    have hquotient : (Float64.finite 0).div (.finite q) = .finite 0 := by
      show Float64.finite (Python.nearestDouble (0 / q)) = _
      rw [zero_div, Python.nearestDouble_zero]
    rw [hquotient, if_neg (by simp)]
    show Float64.finite (Python.nearestDouble (1 * exp2 0)) = _
    rw [hexp2, mul_one, isDouble_one]
  | infinite negative =>
    rw [if_neg (by simp)]
    show Float64.finite (Python.nearestDouble (1 * exp2 0)) = _
    rw [hexp2, mul_one, isDouble_one]
  | nan => rfl

/-- The channels of clicks. -/
theorem channels_clicks {amount d : Float64} {left : List (PreferenceEvent × String)}
    (hleft : ∀ c ∈ left, decayed exp2 settings 0 c = d ∧ share exp2 settings 0 c = amount
      ∧ topicsOrGeneral c.1 = ["t"]) :
    channels exp2 settings 0 left
      = if .finite 0 < d then (channelAfter settings amount left.length, [])
        else ([], channelAfter settings amount left.length) := by
  unfold channels
  induction left using List.reverseRecOn with
  | nil => split <;> rfl
  | append_singleton left c ih =>
    obtain ⟨hdecayed, hshare, htopics⟩ := hleft c (by simp)
    rw [List.foldl_append, ih fun c hc => hleft c (List.mem_append_left _ hc), List.foldl_cons,
      List.foldl_nil, List.length_append, List.length_singleton, ← addShare_channelAfter]
    unfold contribute
    rw [hdecayed, hshare, htopics]
    by_cases hsign : Float64.finite 0 < d
    · rw [if_pos hsign, if_pos hsign, if_pos hsign]
      rfl
    · rw [if_neg hsign, if_neg hsign, if_neg hsign]
      rfl

/-- A value that the table does not admit. -/
def TooLarge (x : Float64) : Prop :=
  x = .infinite false ∨ ∃ q, x = .finite q ∧ 10 < roundDigits 10 q

/-- It is written, and the table refuses it. -/
theorem TooLarge.written {x : Float64} (h : TooLarge x) {channel : OrderedDict String Float64}
    (hmem : ("t", x) ∈ channel) : ("t", x.roundTo 10) ∈ roundedChannel channel
      ∧ ¬ ∃ q, x.roundTo 10 = .finite q ∧ ¬ (q < 0 ∨ 10 < q) := by
  have hsmall : Python.nearestDouble (1 / 10 ^ 12) ≤ 1 := isDouble_one.nearestDouble_le (by norm_num)
  refine ⟨List.mem_filter.mpr ⟨List.mem_map.mpr ⟨_, Lib.mem_stableSort.mpr hmem, rfl⟩,
    decide_eq_true ?_⟩, ?_⟩
  · rcases h with rfl | ⟨q, rfl, hq⟩
    · exact ⟨rfl, rfl⟩
    · have hpos : 0 < roundDigits 10 q := lt_trans (by norm_num) hq
      refine ⟨Float64.finite_lt_finite.mpr ?_, Float64.finite_lt_finite.mpr hpos⟩
      rw [abs_of_pos hpos]
      linarith
  · rintro ⟨q', hq', hin⟩
    rcases h with rfl | ⟨q, rfl, hq⟩
    · cases hq'
    · obtain rfl := Float64.finite.inj hq'
      exact hin (.inr hq)

/-- What is left of the bound when the settings are not safe. -/
theorem tooLarge_bound (hnot : ¬ settings.Safe) : TooLarge settings.preferenceChannelBound := by
  unfold Settings.Safe at hnot
  push Not at hnot
  obtain ⟨-, hpositive, hnan, hlarge⟩ := hnot
  cases hbound : settings.preferenceChannelBound with
  | finite q => exact .inr ⟨q, rfl, hlarge q hbound⟩
  | infinite negative =>
    cases negative with
    | false => exact .inl rfl
    | true => exact absurd (show notPositive (.infinite true) from rfl) (hbound ▸ hpositive)
  | nan => exact absurd hbound hnan

/-- The clicks are counted up to the bound. -/
theorem valueAfter_eq {bound : Float64} (hbound : settings.preferenceChannelBound = bound) {n : Nat}
    (hn : n ≤ 2 ^ 53) (hlt : ∀ k ≤ n, Float64.finite k < bound) :
    valueAfter settings (.finite 1) n = .finite n := by
  induction n with
  | zero => rw [Nat.cast_zero]; rfl
  | succ n ih =>
    unfold valueAfter
    rw [ih (by omega) fun k hk => hlt k (by omega), hbound]
    have hsum : (Float64.finite n).add (.finite 1) = .finite (n + 1 : Nat) := by
      show Float64.finite (Python.nearestDouble (n + 1)) = _
      have hdouble := Python.isDouble_natCast hn
      rw [Nat.cast_add_one] at hdouble ⊢
      rw [hdouble]
    rw [hsum]
    unfold Float64.minOf
    rw [if_pos (hlt (n + 1) le_rfl)]

/-- The value after eleven clicks is too large. -/
theorem tooLarge_valueAfter (hnot : ¬ settings.Safe) {d : Float64}
    (hd : d = if settings.preferenceHalfLifeHours = .nan then .nan else .finite 1) :
    TooLarge (valueAfter settings d 11) := by
  have hlarge := tooLarge_bound hnot
  have hten : roundDigits 10 (10 : ℚ) = 10 := by
    have h := Python.roundDigits_intCast (n := 10) (m := 10)
      (by exact_mod_cast Python.isDouble_natCast (n := 10) (by norm_num))
    exact_mod_cast h
  have heleven : roundDigits 10 (11 : ℚ) = 11 := by
    have h := Python.roundDigits_intCast (n := 10) (m := 11)
      (by exact_mod_cast Python.isDouble_natCast (n := 11) (by norm_num))
    exact_mod_cast h
  by_cases hnan : settings.preferenceHalfLifeHours = .nan
  · -- every value is the bound
    rw [if_pos hnan] at hd
    subst hd
    show TooLarge (.minOf settings.preferenceChannelBound ((valueAfter settings .nan 10).add .nan))
    rw [Float64.add_nan, Float64.minOf_of_nan]
    exact hlarge
  · rw [if_neg hnan] at hd
    subst hd
    have hten' : ∀ k ≤ 10, Float64.finite (k : Nat) < settings.preferenceChannelBound := by
      intro k hk
      rcases hlarge with hbound | ⟨bound, hbound, hround⟩
      · rw [hbound]
        exact rfl
      · rw [hbound, Float64.finite_lt_finite]
        have hk' : (k : ℚ) ≤ 10 := by exact_mod_cast hk
        by_contra hle
        have hmono := Python.roundDigits_mono (n := 10) ((not_lt.mp hle).trans hk')
        linarith
    have hcount := valueAfter_eq rfl (by norm_num) hten'
    have hstep : valueAfter settings (.finite 1) 11
        = .minOf settings.preferenceChannelBound (.finite 11) := by
      show Float64.minOf _ ((valueAfter settings (.finite 1) 10).add (.finite 1)) = _
      rw [hcount]
      show Float64.minOf _ (.finite (Python.nearestDouble ((10 : Nat) + 1))) = _
      have hdouble := Python.isDouble_natCast (n := 11) (by norm_num)
      have hsum : (((10 : Nat) : ℚ) + 1) = (11 : Nat) := by norm_num
      rw [hsum, hdouble]
      rfl
    rw [hstep]
    unfold Float64.minOf
    split
    · exact .inr ⟨11, rfl, by rw [heleven]; norm_num⟩
    · exact hlarge

/-- **The clicks** are written, and the table refuses them, unless the settings are safe. -/
theorem not_insertable_clicks (hexp2 : exp2 0 = 1) (hnot : ¬ settings.Safe) :
    ∃ payload, buildPreferenceVectorV2 exp2 clicks none 0 settings 10000 = .ok payload
      ∧ ¬ Insertable payload := by
  have haccepted : ¬ (notPositive settings.preferenceHalfLifeHours
      ∨ notPositive settings.preferenceChannelBound) :=
    fun h => hnot (h.imp id .inl)
  unfold buildPreferenceVectorV2
  rw [if_neg haccepted]
  refine ⟨_, rfl, fun hinsert => ?_⟩
  obtain ⟨-, hpositive, hnegative⟩ := hinsert
  dsimp only at hpositive hnegative
  rw [contributions_clicks] at hpositive hnegative
  have hreference : referenceAtOf clicks none 0 = 0 := by decide
  rw [hreference] at hpositive hnegative
  obtain ⟨d, hd⟩ : ∃ d : Float64, d = if settings.preferenceHalfLifeHours = .nan then .nan
      else .finite 1 := ⟨_, rfl⟩
  have hleft : ∀ c ∈ clicks.map fun event => (event, "click"), decayed exp2 settings 0 c = d
      ∧ share exp2 settings 0 c = d ∧ topicsOrGeneral c.1 = ["t"] := by
    intro c hc
    obtain ⟨event, hevent, rfl⟩ := List.mem_map.mp hc
    obtain ⟨id, -, rfl⟩ := List.mem_map.mp hevent
    have hdecayed : decayed exp2 settings 0
        (⟨id, "p", "click", ["t"], 0, none, none, none, none, none⟩, "click") = d :=
      (decayed_click hexp2 rfl).trans hd.symm
    refine ⟨hdecayed, ?_, rfl⟩
    unfold share
    rw [hdecayed]
    by_cases hnan : settings.preferenceHalfLifeHours = .nan
    · rw [if_pos hnan] at hd
      rw [hd]
      rfl
    · rw [if_neg hnan] at hd
      rw [hd]
      show Float64.finite (Python.nearestDouble (|1| / ((1 : Nat) : ℚ))) = _
      rw [abs_one, Nat.cast_one, div_one, isDouble_one]
  have hlarge := tooLarge_valueAfter hnot hd
  have hmem : ("t", valueAfter settings d 11) ∈ channelAfter settings d 11 :=
    List.mem_singleton.mpr rfl
  obtain ⟨hwritten, hrefused⟩ := hlarge.written hmem
  rw [channels_clicks hleft] at hpositive hnegative
  split at hpositive
  · exact hrefused (hpositive _ hwritten)
  · next hsign =>
    rw [if_neg hsign] at hnegative
    exact hrefused (hnegative _ hwritten)

end Unsafe

/-! ### The condition is exact -/

/-- **What the worker writes is readable, whatever the events, exactly under safe settings.** -/
theorem readable_iff {exp2 : ℚ → ℚ} (hexp2 : exp2 0 = 1) (hnonneg : ∀ x, 0 ≤ exp2 x)
    (settings : Settings) :
    (∀ (events : List PreferenceEvent) (referenceAt : Option Instant) (now : Instant)
        (qualifiedReadMs : Int) (payload : Payload Float64),
      buildPreferenceVectorV2 exp2 events referenceAt now settings qualifiedReadMs = .ok payload →
      Readable exp2 payload) ↔ settings.Safe := by
  constructor
  · intro hall
    by_contra hnot
    obtain ⟨payload, hbuild, hrefused⟩ := not_insertable_clicks hexp2 hnot
    exact hrefused (hall clicks none 0 10000 payload hbuild).1
  · intro hsafe events referenceAt now qualifiedReadMs payload hbuild
    exact readable_of_safe hnonneg hsafe hbuild

/-- `math.exp2`, at the integers. -/
def exp2Floor (x : ℚ) : ℚ := 2 ^ ⌊x⌋

/-- The defaults, a half-life of 720 hours and a bound of 10, are safe. -/
theorem readable_defaults : Settings.Safe ⟨.finite 720, .finite 10⟩
    ∧ ∀ (events : List PreferenceEvent) (referenceAt : Option Instant) (now : Instant)
        (qualifiedReadMs : Int) (payload : Payload Float64),
      buildPreferenceVectorV2 exp2Floor events referenceAt now ⟨.finite 720, .finite 10⟩
        qualifiedReadMs = .ok payload → Readable exp2Floor payload := by
  have hsafe : Settings.Safe ⟨.finite 720, .finite 10⟩ :=
    .inr (.inr (.inr ⟨10, rfl, by decide +kernel⟩))
  have hnonneg : ∀ x, 0 ≤ exp2Floor x := fun x => zpow_nonneg (by norm_num) ⌊x⌋
  exact ⟨hsafe, (readable_iff (by decide +kernel) hnonneg _).mpr hsafe⟩

/-- Under a bound of 20 the eleven clicks are written as 11, which the table and the decoder
    refuse. -/
theorem bound_twenty_refused :
    let payload : Payload Float64 := ⟨preferenceSchemaV2, [("t", .finite 11)], [], 0, 11⟩
    buildPreferenceVectorV2 exp2Floor clicks none 0 ⟨.finite 720, .finite 20⟩ 10000 = .ok payload
      ∧ ¬ Insertable payload ∧ decodeV2Payload payload = none
      ∧ ¬ Readable exp2Floor payload := by
  have hrefused : ¬ Insertable ⟨preferenceSchemaV2, [("t", Float64.finite 11)], [], 0, 11⟩ := by
    rintro ⟨-, hpositive, -⟩
    obtain ⟨q, hq, hin⟩ := hpositive ("t", .finite 11) (List.mem_singleton.mpr rfl)
    obtain rfl := Float64.finite.inj hq
    exact hin (.inr (by norm_num))
  exact ⟨by decide +kernel, hrefused, by decide +kernel, fun h => hrefused h.1⟩

end Oecophylla.Preference.AnySettings
