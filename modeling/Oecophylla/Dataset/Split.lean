import Oecophylla.Dataset.Schemas
import Mathlib.Data.Prod.Lex

namespace Oecophylla.Dataset

open Lib (stableSort)
open Oecophylla.Python (roundDouble roundHalfEven)

/-!
# The splits of the ranking dataset — `build_dataset.py`

* `requestGroups` — the rows of each request, the requests in the order they first appear;
* `snapSplitBoundary` — a boundary moved so that it does not part requests of one time;
* `splitRankingRows` — the rows with their splits;
* `mem_splitRankingRows` — splitting changes nothing but the splits.
-/

variable {F : Type}

/-- `_canonical_request_identity`, the key by which rows are grouped: `grouped.values()`. -/
def requestGroups (rows : List (RankingDatasetRow F)) : List (List (RankingDatasetRow F)) :=
  (rows.map RankingDatasetRow.auditRequestIdentity).eraseDups.map fun identity =>
    rows.filter fun row => row.auditRequestIdentity = identity

/-- `min(row.served_at for row in group)`. -/
def groupTime (group : List (RankingDatasetRow F)) : Int :=
  (group.map fun row => row.servedAt.micros).min?.getD 0

/-- The order of the groups: their times, then their identities. -/
def compareGroups (a b : List (RankingDatasetRow F)) : Ordering :=
  (compare (groupTime a) (groupTime b)).then
    (compare (a.head?.map RankingDatasetRow.auditRequestIdentity)
      (b.head?.map RankingDatasetRow.auditRequestIdentity))

/-! ### Boundaries -/

/-- The groups on both sides of a boundary have one time. -/
def Straddles (groupTimes : List Int) (boundary : Nat) : Prop :=
  0 < boundary ∧ boundary < groupTimes.length
    ∧ groupTimes[boundary - 1]? = groupTimes[boundary]?

instance (groupTimes : List Int) (boundary : Nat) : Decidable (Straddles groupTimes boundary) :=
  inferInstanceAs (Decidable (_ ∧ _))

/-- The loop that moves a boundary to the left. -/
def leftBoundary (groupTimes : List Int) : Nat → Nat
  | 0 => 0
  | boundary + 1 =>
    if Straddles groupTimes (boundary + 1) then leftBoundary groupTimes boundary else boundary + 1

/-- The loop that moves a boundary to the right; it ends at the last group at the latest. -/
def rightBoundary (groupTimes : List Int) : (rounds : Nat) → Nat → Nat
  | 0, boundary => boundary
  | rounds + 1, boundary =>
    if Straddles groupTimes boundary then rightBoundary groupTimes rounds (boundary + 1)
    else boundary

/-- `prefer_non_empty_side`. -/
inductive Side where
  | left
  | right
  deriving DecidableEq, Repr

/-- `score(candidate)`. -/
def score (groupCount boundary : Nat) (prefer : Side) (candidate : Nat) :
    Int ×ₗ Int ×ₗ Int ×ₗ Int :=
  let leftNonEmpty : Int := if 0 < candidate then 1 else 0
  let rightNonEmpty : Int := if candidate < groupCount then 1 else 0
  let preferredSide := if prefer = .left then leftNonEmpty else rightNonEmpty
  toLex (-(leftNonEmpty + rightNonEmpty), toLex (-preferredSide,
    toLex (|(candidate : Int) - boundary|, (candidate : Int))))

/-- `_snap_split_boundary(boundary, group_times, prefer_non_empty_side)`. -/
def snapSplitBoundary (boundary : Int) (groupTimes : List Int) (prefer : Side) : Nat :=
  if boundary ≤ 0 then 0
  else if groupTimes.length ≤ boundary then groupTimes.length
  else
    let boundary := boundary.toNat
    if ¬ Straddles groupTimes boundary then boundary
    else
      let left := leftBoundary groupTimes boundary
      let right := rightBoundary groupTimes groupTimes.length boundary
      if score groupTimes.length boundary prefer right < score groupTimes.length boundary prefer left
      then right else left

/-- `round(group_count * (1 - train_fraction - validation_fraction))`. -/
def testShare (groupCount : Nat) (trainFraction validationFraction : ℚ) : Int :=
  roundHalfEven (roundDouble (roundDouble groupCount
    * roundDouble (roundDouble (1 - trainFraction) - validationFraction)))

/-- `round(group_count * validation_fraction)`. -/
def validationShare (groupCount : Nat) (validationFraction : ℚ) : Int :=
  roundHalfEven (roundDouble (roundDouble groupCount * validationFraction))

/-- Where the train groups and the validation groups end. -/
def splitBoundaries (groupTimes : List Int) (trainFraction validationFraction : ℚ) : Nat × Nat :=
  let groupCount := groupTimes.length
  let testCount := max 1 (testShare groupCount trainFraction validationFraction)
  let validationCount :=
    if 3 ≤ groupCount then max 1 (validationShare groupCount validationFraction) else 0
  let validationCount :=
    if groupCount ≤ testCount + validationCount then max 0 (groupCount - testCount - 1)
    else validationCount
  let trainEnd := groupCount - validationCount - testCount
  let validationEnd := trainEnd + validationCount
  let trainEnd := snapSplitBoundary trainEnd groupTimes .left
  let validationEnd := snapSplitBoundary validationEnd groupTimes .right
  (trainEnd, max trainEnd validationEnd)

/-! ### Splits -/

/-- The split of the group at an index. -/
def splitAt (trainEnd validationEnd index : Nat) : SplitName :=
  if index < trainEnd then .train else if index < validationEnd then .validation else .test

/-- The order of the rows of the dataset. -/
def compareRows (a b : RankingDatasetRow F) : Ordering :=
  (compare a.servedAt.micros b.servedAt.micros).then
    ((compare a.position b.position).then (compare a.sampleId b.sampleId))

/-- `replace(row, split=split)` on a group. -/
def withSplit (split : SplitName) (group : List (RankingDatasetRow F)) :
    List (RankingDatasetRow F) :=
  group.map fun row => { row with split := split }

/-- `_split_ranking_rows(rows, train_fraction, validation_fraction)`. -/
def splitRankingRows (rows : List (RankingDatasetRow F)) (trainFraction validationFraction : ℚ) :
    List (RankingDatasetRow F) :=
  match stableSort compareGroups (requestGroups rows) with
  | [] => []
  | [group] => withSplit .train group
  | orderedGroups =>
    let (trainEnd, validationEnd) :=
      splitBoundaries (orderedGroups.map groupTime) trainFraction validationFraction
    stableSort compareRows (orderedGroups.mapIdx fun index group =>
      withSplit (splitAt trainEnd validationEnd index) group).flatten

/-- A row of a group is a row of the dataset. -/
theorem mem_of_mem_group {rows group : List (RankingDatasetRow F)} {row : RankingDatasetRow F}
    (hgroup : group ∈ stableSort compareGroups (requestGroups rows)) (hrow : row ∈ group) :
    row ∈ rows := by
  obtain ⟨identity, -, rfl⟩ := List.mem_map.mp (Lib.mem_stableSort.mp hgroup)
  exact List.mem_of_mem_filter hrow

/-- **Splitting changes only the splits.** -/
theorem mem_splitRankingRows {rows : List (RankingDatasetRow F)} {train validation : ℚ}
    {row : RankingDatasetRow F} (h : row ∈ splitRankingRows rows train validation) :
    ∃ source ∈ rows, row = { source with split := row.split } := by
  have hgroups : ∀ group ∈ stableSort compareGroups (requestGroups rows), ∀ source ∈ group,
      source ∈ rows := fun _ hgroup _ hsource => mem_of_mem_group hgroup hsource
  unfold splitRankingRows at h
  split at h
  · nomatch h
  · next group hsorted =>
    obtain ⟨source, hsource, rfl⟩ := List.mem_map.mp h
    exact ⟨source, hgroups group (by simp [hsorted]) source hsource, rfl⟩
  · next hsorted _ _ =>
    rw [Lib.mem_stableSort, List.mem_flatten] at h
    obtain ⟨rows', hrows', hrow⟩ := h
    obtain ⟨index, hindex, rfl⟩ := List.mem_mapIdx.mp hrows'
    obtain ⟨source, hsource, rfl⟩ := List.mem_map.mp hrow
    exact ⟨source, hgroups _ (List.getElem_mem hindex) source hsource, rfl⟩

end Oecophylla.Dataset
