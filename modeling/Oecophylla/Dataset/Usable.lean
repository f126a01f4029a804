import Oecophylla.Dataset.Temporal
import Oecophylla.Python.Rounding

namespace Oecophylla.Dataset

open Lib (stableSort)
open Oecophylla.Python (roundDouble)

/-!
# Which ranking splits are usable — `_split_ranking_rows`

A dataset without train rows or without test rows is of no use.  The test part takes its share of the
groups first and may take all of them, where both fractions are small; the train part then has none.

* `snapSplitBoundary_inside` — a boundary between groups of two times stays between groups;
* `splitBoundaries_spec` — the train part is empty exactly where the share of the test part is not
  below the number of the groups;
* `usable_iff` — the rows of the two splits.
-/

/-! ### Snapping -/

section Snap

variable {times : List Int}

theorem leftBoundary_le (times : List Int) (cut : Nat) : leftBoundary times cut ≤ cut := by
  induction cut with
  | zero => exact le_rfl
  | succ cut ih =>
    unfold leftBoundary
    split
    · omega
    · exact le_rfl

/-- A boundary moves to the start over groups of one time. -/
theorem same_of_leftBoundary {cut : Nat} (h : leftBoundary times cut = 0) :
    times[cut]? = times[0]? := by
  induction cut with
  | zero => rfl
  | succ cut ih =>
    unfold leftBoundary at h
    split at h
    · next hstraddles => exact hstraddles.2.2.symm.trans (ih h)
    · cases h

theorem le_rightBoundary (times : List Int) (rounds cut : Nat) :
    cut ≤ rightBoundary times rounds cut := by
  induction rounds generalizing cut with
  | zero => exact le_rfl
  | succ rounds ih =>
    unfold rightBoundary
    split
    · exact (Nat.le_succ cut).trans (ih (cut + 1))
    · exact le_rfl

theorem rightBoundary_le (rounds : Nat) {cut : Nat} (h : cut ≤ times.length) :
    rightBoundary times rounds cut ≤ times.length := by
  induction rounds generalizing cut with
  | zero => exact h
  | succ rounds ih =>
    unfold rightBoundary
    split
    · next hstraddles => exact ih hstraddles.2.1
    · exact h

/-- A boundary moves to the end over groups of one time. -/
theorem same_of_rightBoundary {rounds cut : Nat} (hpos : 0 < cut) (hlt : cut ≤ times.length)
    (h : rightBoundary times rounds cut = times.length) :
    times[cut - 1]? = times[times.length - 1]? := by
  induction rounds generalizing cut with
  | zero =>
    unfold rightBoundary at h
    rw [h]
  | succ rounds ih =>
    unfold rightBoundary at h
    split at h
    · next hstraddles =>
      rw [hstraddles.2.2]
      exact ih (Nat.succ_pos cut) hstraddles.2.1 h
    · rw [h]

/-- `populated_sides`. -/
private def populatedSides (groupCount candidate : Nat) : Int :=
  (if 0 < candidate then 1 else 0) + if candidate < groupCount then 1 else 0

private theorem populatedSides_inside {groupCount candidate : Nat} (hpos : 0 < candidate)
    (hlt : candidate < groupCount) : populatedSides groupCount candidate = 2 := by
  unfold populatedSides
  rw [if_pos hpos, if_pos hlt]
  rfl

private theorem populatedSides_end {groupCount candidate : Nat}
    (h : candidate = 0 ∨ candidate = groupCount) : populatedSides groupCount candidate < 2 := by
  unfold populatedSides
  split_ifs <;> omega

/-- The candidate with more populated sides has the lower score. -/
private theorem score_lt_of_populatedSides {groupCount cut left right : Nat} {prefer : Side}
    (h : populatedSides groupCount left < populatedSides groupCount right) :
    score groupCount cut prefer right < score groupCount cut prefer left :=
  Prod.Lex.toLex_lt_toLex.mpr (Or.inl (neg_lt_neg h))

/-- **Snapping.**  A boundary between groups of at least two times stays between groups. -/
theorem snapSplitBoundary_inside {cut : Int} (hpos : 0 < cut) (hlt : cut < times.length)
    (htimes : times[0]? ≠ times[times.length - 1]?) (prefer : Side) :
    0 < snapSplitBoundary cut times prefer ∧ snapSplitBoundary cut times prefer < times.length := by
  unfold snapSplitBoundary
  rw [if_neg (by omega), if_neg (by omega)]
  dsimp only
  split
  · omega
  · next hstraddles =>
    have hstraddles := not_not.mp hstraddles
    have hleft := leftBoundary_le times cut.toNat
    have hright := le_rightBoundary times times.length cut.toNat
    have hrightLe := rightBoundary_le times.length (show cut.toNat ≤ times.length by omega)
    -- both candidates leave a part empty only where all times are one
    have hnotBoth : ¬ (leftBoundary times cut.toNat = 0
        ∧ rightBoundary times times.length cut.toNat = times.length) := by
      rintro ⟨hstart, hend⟩
      have hfirst := same_of_leftBoundary hstart
      have hlast := same_of_rightBoundary (by omega) (by omega) hend
      exact htimes (hfirst.symm.trans (hstraddles.2.2.symm.trans hlast))
    -- a boundary with groups on both sides is better than one at an end
    split
    · next hbetter =>
      refine ⟨by omega, lt_of_le_of_ne hrightLe fun hend => ?_⟩
      have hstart : leftBoundary times cut.toNat ≠ 0 := fun h => hnotBoth ⟨h, hend⟩
      refine lt_asymm hbetter (score_lt_of_populatedSides ?_)
      rw [populatedSides_inside (Nat.pos_of_ne_zero hstart) (by omega)]
      exact populatedSides_end (Or.inr hend)
    · next hworse =>
      refine ⟨Nat.pos_of_ne_zero fun hstart => ?_, by omega⟩
      have hend : rightBoundary times times.length cut.toNat ≠ times.length := fun h =>
        hnotBoth ⟨hstart, h⟩
      refine hworse (score_lt_of_populatedSides ?_)
      have hright : 0 < rightBoundary times times.length cut.toNat := by omega
      rw [populatedSides_inside hright (by omega)]
      exact populatedSides_end (Or.inl hstart)

end Snap

/-! ### The boundaries -/

/-- The share of the test part leaves a group to train on: the double
    `group_count * (1 - train_fraction - validation_fraction)` is rounded below the number of the
    groups. -/
def LeavesTrain (groupCount : Nat) (trainFraction validationFraction : ℚ) : Prop :=
  let share := roundDouble (roundDouble groupCount
    * roundDouble (roundDouble (1 - trainFraction) - validationFraction))
  share < groupCount - 1 / 2 ∨ share = groupCount - 1 / 2 ∧ groupCount % 2 = 1

instance (groupCount : Nat) (trainFraction validationFraction : ℚ) :
    Decidable (LeavesTrain groupCount trainFraction validationFraction) :=
  inferInstanceAs (Decidable (_ ∨ _))

theorem testShare_lt_iff {groupCount : Nat} {train validation : ℚ} :
    testShare groupCount train validation < groupCount
      ↔ LeavesTrain groupCount train validation := by
  unfold testShare LeavesTrain
  rw [Python.roundHalfEven_lt_iff, Int.cast_natCast]
  exact or_congr_right (and_congr_right fun _ => by omega)

/-- **The boundaries** of groups of at least two times: the train part is empty exactly where the test
    part takes all groups, and the test part never is. -/
theorem splitBoundaries_spec {times : List Int} (htwo : 2 ≤ times.length)
    (htimes : times[0]? ≠ times[times.length - 1]?) (train validation : ℚ) :
    (0 < (splitBoundaries times train validation).1 ↔ LeavesTrain times.length train validation)
      ∧ (splitBoundaries times train validation).2 < times.length := by
  rw [← testShare_lt_iff]
  unfold splitBoundaries
  dsimp only
  -- `first` is the part of the validation groups, `second` what the test groups leave of it
  generalize hshare : testShare times.length train validation = share
  generalize hvalidation : (if 3 ≤ times.length then max 1 (validationShare times.length validation)
    else 0) = first
  have hfirst : 0 ≤ first := by
    rw [← hvalidation]
    split <;> omega
  generalize hsecond : (if (times.length : Int) ≤ max 1 share + first then
    max 0 ((times.length : Int) - max 1 share - 1) else first) = second
  have hbounds : 0 ≤ second ∧ (share < times.length → second + max 1 share < times.length)
      ∧ (times.length ≤ share → second = 0) := by
    rw [← hsecond]
    split <;> omega
  by_cases hfits : share < times.length
  · -- both boundaries are between groups
    have hcut : 0 < (times.length : Int) - second - max 1 share := by omega
    have hcutEnd : 0 < (times.length : Int) - second - max 1 share + second := by omega
    have htrain := snapSplitBoundary_inside hcut (by omega) htimes .left
    have hend := snapSplitBoundary_inside hcutEnd (by omega) htimes .right
    exact ⟨iff_of_true htrain.1 hfits, max_lt htrain.2 hend.2⟩
  · -- the test part takes all groups: both boundaries are at the start
    have hzero : ∀ cut : Int, cut ≤ 0 → ∀ prefer, snapSplitBoundary cut times prefer = 0 := by
      intro cut hcut prefer
      unfold snapSplitBoundary
      rw [if_pos hcut]
    rw [hzero _ (by omega), hzero _ (by omega)]
    exact ⟨iff_of_false (lt_irrefl 0) hfits, by omega⟩

/-! ### The rows -/

section Rows

variable {F : Type} {rows : List (RankingDatasetRow F)}

/-- The rows of the dataset have requests of two times. -/
def TwoTimes (rows : List (RankingDatasetRow F)) : Prop :=
  ∃ a ∈ requestGroups rows, ∃ b ∈ requestGroups rows, groupTime a ≠ groupTime b

/-- Every request has a row. -/
theorem ne_nil_of_mem_requestGroups {group : List (RankingDatasetRow F)}
    (h : group ∈ requestGroups rows) : group ≠ [] := by
  obtain ⟨identity, hidentity, rfl⟩ := List.mem_map.mp h
  rw [List.mem_eraseDups] at hidentity
  obtain ⟨row, hrow, rfl⟩ := List.mem_map.mp hidentity
  exact List.ne_nil_of_mem (List.mem_filter.mpr ⟨hrow, by simp⟩)

/-- The requests are in the order of their times. -/
theorem pairwise_groupTime (rows : List (RankingDatasetRow F)) :
    ((stableSort compareGroups (requestGroups rows)).map groupTime).Pairwise (· ≤ ·) := by
  have htrans : Std.TransCmp (compareGroups (F := F)) :=
    inferInstanceAs (Std.TransCmp (compareLex (Lib.compareBy compare groupTime)
      (Lib.compareBy compare fun group => group.head?.map RankingDatasetRow.auditRequestIdentity)))
  rw [List.pairwise_map]
  refine (Lib.pairwise_stableSort compareGroups _).imp fun {a b} hab => ?_
  unfold compareGroups at hab
  -- the identities only decide between requests of one time
  cases hcompare : compare (groupTime a) (groupTime b) with
  | lt => exact (compare_lt_iff_lt.mp hcompare).le
  | eq => exact (compare_eq_iff_eq.mp hcompare).le
  | gt =>
    rw [hcompare] at hab
    cases hab

/-- A sorted list of at least two values does not end where it begins. -/
private theorem ends_ne {times : List Int} (hsorted : times.Pairwise (· ≤ ·)) {x y : Int}
    (hx : x ∈ times) (hy : y ∈ times) (hne : x ≠ y) :
    2 ≤ times.length ∧ times[0]? ≠ times[times.length - 1]? := by
  obtain ⟨i, hi, rfl⟩ := List.mem_iff_getElem.mp hx
  obtain ⟨j, hj, rfl⟩ := List.mem_iff_getElem.mp hy
  have hij : i ≠ j := by
    rintro rfl
    exact hne rfl
  refine ⟨by omega, fun hsame => ?_⟩
  rw [List.getElem?_eq_getElem (by omega), List.getElem?_eq_getElem (by omega),
    Option.some.injEq] at hsame
  -- between equal ends all values are equal
  have hle : ∀ m n (hm : m < times.length) (hn : n < times.length), m ≤ n → times[m] ≤ times[n] := by
    intro m n hm hn hmn
    rcases hmn.lt_or_eq with hlt | rfl
    · exact List.pairwise_iff_getElem.mp hsorted m n hm hn hlt
    · exact le_rfl
  have hall : ∀ m (hm : m < times.length), times[m] = times[0] := by
    intro m hm
    refine le_antisymm ?_ (hle 0 m (by omega) hm (Nat.zero_le m))
    rw [hsame]
    exact hle m _ hm (by omega) (by omega)
  exact hne ((hall i hi).trans (hall j hj).symm)

/-- A split has rows where an index falls into it, since no request is empty. -/
theorem exists_split_iff {groups : List (List (RankingDatasetRow F))}
    (hgroups : ∀ group ∈ groups, group ≠ []) {trainEnd validationEnd : Nat} {split : SplitName} :
    (∃ row ∈ stableSort compareRows (groups.mapIdx fun index group =>
        withSplit (splitAt trainEnd validationEnd index) group).flatten, row.split = split)
      ↔ ∃ i < groups.length, splitAt trainEnd validationEnd i = split := by
  have hmem : ∀ row, row ∈ (groups.mapIdx fun index group =>
      withSplit (splitAt trainEnd validationEnd index) group).flatten ↔ _ := fun row =>
    @mem_cutAt _ RankingDatasetRow.replaceSplit _ _ _ row
  simp only [Lib.mem_stableSort, hmem]
  constructor
  · rintro ⟨row, ⟨i, hi, source, -, rfl⟩, hsplit⟩
    exact ⟨i, hi, hsplit⟩
  · rintro ⟨i, hi, hsplit⟩
    obtain ⟨source, hsource⟩ := List.exists_mem_of_ne_nil _ (hgroups _ (List.getElem_mem hi))
    exact ⟨_, ⟨i, hi, source, hsource, rfl⟩, hsplit⟩

/-- The test split of requests of two times has rows, and the train split where the share of the test
    split leaves a group to train on. -/
theorem exists_splits (h : TwoTimes rows) (train validation : ℚ) :
    ((∃ row ∈ splitRankingRows rows train validation, row.split = .train)
        ↔ LeavesTrain (requestGroups rows).length train validation)
      ∧ ∃ row ∈ splitRankingRows rows train validation, row.split = .test := by
  obtain ⟨a, ha, b, hb, hne⟩ := h
  have hsorted := pairwise_groupTime rows
  have hnonempty : ∀ group ∈ stableSort compareGroups (requestGroups rows), group ≠ [] :=
    fun group hgroup => ne_nil_of_mem_requestGroups (Lib.mem_stableSort.mp hgroup)
  have hperm := Lib.stableSort_perm compareGroups (requestGroups rows)
  replace ha := hperm.mem_iff.mpr ha
  replace hb := hperm.mem_iff.mpr hb
  rw [← hperm.length_eq]
  unfold splitRankingRows
  generalize stableSort compareGroups (requestGroups rows) = groups at *
  obtain ⟨htwo, htimes⟩ := ends_ne hsorted (List.mem_map_of_mem ha) (List.mem_map_of_mem hb) hne
  obtain ⟨htrain, htest⟩ := splitBoundaries_spec htwo htimes train validation
  have hle : (splitBoundaries (groups.map groupTime) train validation).1
      ≤ (splitBoundaries (groups.map groupTime) train validation).2 := le_max_left _ _
  rw [List.length_map] at htwo htest htrain
  rw [← htrain]
  split
  · cases htwo
  · next group => exact absurd htwo (by simp)
  · dsimp only
    rw [exists_split_iff hnonempty, exists_split_iff hnonempty]
    -- the first group is a train group, the last one a test group
    refine ⟨⟨fun ⟨i, _, hi⟩ => ?_, fun hpos => ?_⟩, ?_⟩
    · have hlt := splitAt_eq_train.mp hi
      omega
    · exact ⟨0, by omega, splitAt_eq_train.mpr hpos⟩
    · exact ⟨groups.length - 1, by omega, splitAt_eq_test.mpr (by omega)⟩

/-- **Usable splits.**  For every configuration and all rows with requests of two times, the train
    split and the test split both have rows exactly where the share of the test split leaves a group
    to train on. -/
theorem usable_iff (config : DatasetConfig) (h : TwoTimes rows) :
    ((∃ row ∈ splitRankingRows rows config.trainFraction config.validationFraction,
        row.split = .train)
      ∧ ∃ row ∈ splitRankingRows rows config.trainFraction config.validationFraction,
        row.split = .test)
      ↔ LeavesTrain (requestGroups rows).length config.trainFraction config.validationFraction := by
  obtain ⟨htrain, htest⟩ := exists_splits h config.trainFraction config.validationFraction
  rw [htrain]
  exact and_iff_left htest

end Rows

/-! ### Examples -/

/-- A day of January 2026, UTC. -/
private def januaryDay (day : Nat) : Python.Timestamp := ⟨⟨2026, 1, day, 0, 0, 0, 0, some 0⟩, rfl⟩

/-- A row of a request that was served on a day. -/
private def servedOn (identity : String) (day : Nat) : RankingDatasetRow Unit where
  sampleId := identity
  requestGroup := identity
  candidateGroup := "post"
  split := .train
  servedAt := januaryDay day
  visibleAt := januaryDay day
  position := 1
  served := true
  visible := true
  clickLabel := 1
  utilityLabel := 1
  utilityLabelName := .positive
  article := ⟨"post", "post-content-embedding-v1", none, none, none, none, none, none, none, none, none,
    none, none, none⟩
  history := []
  feedSource := "ranked"
  modelVersion := "m"
  sourceFormat := "oecophylla-telemetry-v2"
  auditRequestIdentity := identity

/-- A request on each of two days. -/
def twoDays : List (RankingDatasetRow Unit) := [servedOn "a" 1, servedOn "b" 2]

/-- The configuration with two fractions that leave a test part. -/
def withFractions (train validation : ℚ) (htrain : 0 < train ∧ train < 1)
    (hvalidation : 0 < validation ∧ validation < 1) (hholdout : roundDouble (train + validation) < 1) :
    DatasetConfig :=
  { DatasetConfig.ofTimes (januaryDay 1) (januaryDay 3) (januaryDay 5) (by decide) (by decide) with
    trainFraction := train
    validationFraction := validation
    train_inside := htrain
    validation_inside := hvalidation
    holdout := hholdout }

private theorem requestGroups_twoDays :
    requestGroups twoDays = [[servedOn "a" 1], [servedOn "b" 2]] := rfl

private theorem twoTimes_twoDays : TwoTimes twoDays := by
  unfold TwoTimes
  rw [requestGroups_twoDays]
  exact ⟨[servedOn "a" 1], by simp, [servedOn "b" 2], by simp, by decide⟩

/-- The shares of two requests: the test part takes both, or one. -/
private theorem shares : (¬ LeavesTrain 2 (1 / 64) (1 / 64) ∧ roundDouble (1 / 64 + 1 / 64) < 1)
    ∧ LeavesTrain 2 (3 / 4) (1 / 8) ∧ roundDouble (3 / 4 + 1 / 8) < 1 := by
  decide +kernel

/-- The train split of two requests with small fractions is empty. -/
theorem no_train_of_small_fractions :
    ¬ ∀ (config : DatasetConfig) (rows : List (RankingDatasetRow Unit)), TwoTimes rows →
      (∃ row ∈ splitRankingRows rows config.trainFraction config.validationFraction,
          row.split = .train)
        ∧ ∃ row ∈ splitRankingRows rows config.trainFraction config.validationFraction,
          row.split = .test := by
  intro h
  have husable := h (withFractions (1 / 64) (1 / 64) (by norm_num) (by norm_num) shares.1.2) twoDays
    twoTimes_twoDays
  have htrain := (exists_splits twoTimes_twoDays (1 / 64) (1 / 64)).1.mp husable.1
  rw [requestGroups_twoDays] at htrain
  exact shares.1.1 htrain

/-- With larger fractions both splits have rows. -/
theorem usable_twoDays :
    (∃ row ∈ splitRankingRows twoDays (3 / 4) (1 / 8), row.split = .train)
      ∧ ∃ row ∈ splitRankingRows twoDays (3 / 4) (1 / 8), row.split = .test := by
  refine (usable_iff (withFractions (3 / 4) (1 / 8) (by norm_num) (by norm_num) shares.2.2)
    twoTimes_twoDays).mpr ?_
  rw [requestGroups_twoDays]
  exact shares.2.1

end Oecophylla.Dataset
