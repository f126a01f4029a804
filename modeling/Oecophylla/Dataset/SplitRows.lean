import Oecophylla.Dataset.Temporal

namespace Oecophylla.Dataset

open Lib (stableSort groupsBy)
open Oecophylla.Python (Timestamp)

/-!
# The splits of the dataset of version 1 — `build_dataset.py`

* `splitRows`, `assertAtomicRequestSplits` — the splitter and the assertion that it ends with;
* `snapLeft` — its two loops, which move a cut to the left only;
* `splitRows_temporal` — the assertion never fires and the result is a temporal split.
-/

/-- `DatasetRow`; the features are doubles. -/
structure DatasetRow (F : Type) where
  sampleId : String
  userGroup : Option String
  postGroup : Option String
  requestGroup : Option String
  split : SplitName
  label : Int
  labelName : Label.Semantic
  servedAt : Timestamp
  visibleAt : Timestamp
  position : Int
  feedSource : String
  modelVersion : String
  featureSchemaVersion : String
  topicRelevance : Option F
  freshness : Option F
  safetyScore : Option F
  candidateSource : String
  isFollowedAuthor : Option Bool
  authorAffinity : Option F
  heuristicScore : Option F
  mlScore : Option F
  auditUserId : String
  auditPostId : String
  auditRequestIdentity : String

/-- `AssertionError`, with its text. -/
structure AssertionFailed where
  text : String
  deriving DecidableEq, Repr

variable {F : Type}

namespace DatasetRow

/-- `replace(row, split=split)`. -/
def replaceSplit (split : SplitName) (row : DatasetRow F) : DatasetRow F := { row with split := split }

/-- The time of serving. -/
def servedMicros (row : DatasetRow F) : Int := row.servedAt.micros

/-- The order `(visible_at, sample_id)` of the result. -/
def compareVisible (a b : DatasetRow F) : Ordering :=
  (compare a.visibleAt.micros b.visibleAt.micros).then (compare a.sampleId b.sampleId)

end DatasetRow

/-- The loops `while lower < cut < group_count and group_times[cut - 1] == group_times[cut]`. -/
def snapLeft (groupTimes : List Int) (lower : Nat) : Nat → Nat
  | 0 => 0
  | cut + 1 =>
    if lower < cut + 1 ∧ Straddles groupTimes (cut + 1) then snapLeft groupTimes lower cut
    else cut + 1

/-- Where the train groups and the validation groups end.  A negative count of train groups is as
    none: no group is before it. -/
def rowBoundaries (groupTimes : List Int) (trainFraction validationFraction : ℚ) : Nat × Nat :=
  let groupCount := groupTimes.length
  let testCount := max 1 (testShare groupCount trainFraction validationFraction)
  let validationCount :=
    if 3 ≤ groupCount then max 1 (validationShare groupCount validationFraction) else 0
  let validationCount :=
    if groupCount ≤ testCount + validationCount then max 0 (groupCount - testCount - 1)
    else validationCount
  let trainCount := groupCount - validationCount - testCount
  let trainEnd := snapLeft groupTimes 0 trainCount.toNat
  let validationEnd := snapLeft groupTimes trainEnd (trainCount + validationCount).toNat
  (trainEnd, max trainEnd validationEnd)

/-- `_assert_atomic_request_splits(source_rows, split_rows)`. -/
def assertAtomicRequestSplits (sourceRows splitRows : List (DatasetRow F)) :
    Except AssertionFailed Unit :=
  if ¬ (sourceRows.map DatasetRow.sampleId).Perm (splitRows.map DatasetRow.sampleId) then
    .error ⟨"grouped split did not retain every eligible candidate"⟩
  else if ∃ group ∈ groupsBy DatasetRow.auditRequestIdentity splitRows,
      (group.map DatasetRow.split).eraseDups.length ≠ 1 then
    .error ⟨"canonical request crossed dataset splits"⟩
  else .ok ()

/-- `_split_rows(rows, config)`. -/
def splitRows (rows : List (DatasetRow F)) (trainFraction validationFraction : ℚ) :
    Except AssertionFailed (List (DatasetRow F)) :=
  match stableSort (compareRequests DatasetRow.auditRequestIdentity DatasetRow.servedMicros)
      (groupsBy DatasetRow.auditRequestIdentity rows) with
  | [] => .ok []
  | [group] => .ok (group.map (DatasetRow.replaceSplit .train))
  | orderedGroups => do
    let ends := rowBoundaries (orderedGroups.map (earliest DatasetRow.servedMicros)) trainFraction
      validationFraction
    let result := stableSort DatasetRow.compareVisible
      (cutAt DatasetRow.replaceSplit orderedGroups ends.1 ends.2)
    assertAtomicRequestSplits rows result
    pure result

/-! ### The cuts -/

/-- A loop that stops above its lower bound stops between two times. -/
theorem snapLeft_spec (times : List Int) (lower cut : Nat) :
    snapLeft times lower cut ≤ lower ∨ ¬ Straddles times (snapLeft times lower cut) := by
  induction cut with
  | zero => exact Or.inl (Nat.zero_le _)
  | succ cut ih =>
    unfold snapLeft
    split
    · exact ih
    · next h =>
      rcases Nat.lt_or_ge lower (cut + 1) with hlt | hge
      · exact Or.inr fun hs => h ⟨hlt, hs⟩
      · exact Or.inl hge

/-- Neither cut parts requests of one time. -/
theorem not_straddles_rowBoundaries (times : List Int) (train validation : ℚ) :
    ¬ Straddles times (rowBoundaries times train validation).1
      ∧ ¬ Straddles times (rowBoundaries times train validation).2 := by
  have htrain (cut : Nat) : ¬ Straddles times (snapLeft times 0 cut) := by
    rcases snapLeft_spec times 0 cut with hzero | hcut
    · rw [Nat.le_zero.mp hzero]
      exact fun h => absurd h.1 (lt_irrefl 0)
    · exact hcut
  have hmax (lower cut : Nat) (hlower : ¬ Straddles times lower) :
      ¬ Straddles times (max lower (snapLeft times lower cut)) := by
    -- the second loop stops at the first cut at the latest
    rcases snapLeft_spec times lower cut with hle | hcut
    · rwa [max_eq_left hle]
    · exact not_straddles_max hlower hcut
  exact ⟨htrain _, hmax _ _ (htrain _)⟩

/-! ### The assertion -/

theorem replaces_datasetRow :
    Replaces (ρ := DatasetRow F) DatasetRow.auditRequestIdentity DatasetRow.servedMicros
      DatasetRow.split DatasetRow.replaceSplit :=
  ⟨fun _ _ => rfl, fun _ _ => rfl, fun _ _ => rfl, fun _ _ _ => rfl⟩

/-- A temporal split passes the assertion. -/
theorem assertAtomicRequestSplits_of_temporal {rows result : List (DatasetRow F)}
    (h : TemporalSplit DatasetRow.auditRequestIdentity DatasetRow.servedMicros DatasetRow.split
      DatasetRow.replaceSplit rows result) :
    assertAtomicRequestSplits rows result = .ok () := by
  have hsamples : (rows.map DatasetRow.sampleId).Perm (result.map DatasetRow.sampleId) := by
    have hperm := (h.perm.map DatasetRow.sampleId).symm
    rwa [List.map_map, List.map_map] at hperm
  have hgroups : ¬ ∃ group ∈ groupsBy DatasetRow.auditRequestIdentity result,
      (group.map DatasetRow.split).eraseDups.length ≠ 1 := by
    rintro ⟨group, hgroup, hlength⟩
    obtain ⟨identity, hmem⟩ := Lib.mem_group hgroup
    obtain ⟨row, rest, rfl⟩ := List.exists_cons_of_ne_nil (Lib.ne_nil_of_mem_groupsBy hgroup)
    have hone : ∀ other ∈ rest, other.split = row.split := by
      intro other hother
      have hrow := (hmem row).mp List.mem_cons_self
      have hother' := (hmem other).mp (List.mem_cons_of_mem row hother)
      exact h.atomic other row hother'.1 hrow.1 (hother'.2.trans hrow.2.symm)
    have hnone : (rest.map DatasetRow.split).filter (fun s => !s == row.split) = [] := by
      apply List.filter_eq_nil_iff.mpr
      intro s hs
      obtain ⟨other, hother, rfl⟩ := List.mem_map.mp hs
      simp [hone other hother]
    rw [List.map_cons, List.eraseDups_cons, hnone] at hlength
    exact hlength rfl
  unfold assertAtomicRequestSplits
  rw [if_neg (not_not.mpr hsamples), if_neg hgroups]

/-- **`_split_rows` is a temporal split** and its assertion never fires, whatever the fractions. -/
theorem splitRows_temporal {rows : List (DatasetRow F)}
    (hrows : SameEnvelope DatasetRow.auditRequestIdentity DatasetRow.servedMicros rows)
    (train validation : ℚ) :
    ∃ result, splitRows rows train validation = .ok result
      ∧ TemporalSplit DatasetRow.auditRequestIdentity DatasetRow.servedMicros DatasetRow.split
          DatasetRow.replaceSplit rows result := by
  have hgroups := orderedRequests_stableSort hrows
  unfold splitRows
  split
  · next hnil =>
    rw [hnil] at hgroups
    obtain rfl : rows = [] := List.nil_perm.mp hgroups.perm
    exact ⟨[], rfl, temporalSplit_of_single replaces_datasetRow (List.Perm.refl [])⟩
  · next group hgroup =>
    rw [hgroup] at hgroups
    have hperm := hgroups.perm
    rw [List.flatten_singleton] at hperm
    exact ⟨_, rfl, temporalSplit_of_single replaces_datasetRow hperm⟩
  · obtain ⟨htrain, hvalidation⟩ := not_straddles_rowBoundaries
      ((stableSort (compareRequests DatasetRow.auditRequestIdentity DatasetRow.servedMicros)
        (groupsBy DatasetRow.auditRequestIdentity rows)).map (earliest DatasetRow.servedMicros))
      train validation
    have htemporal := temporalSplit_of_groups replaces_datasetRow hgroups htrain hvalidation
      (Lib.stableSort_perm DatasetRow.compareVisible _)
    exact ⟨_, Lib.except_bind_eq_ok.mpr
      ⟨(), assertAtomicRequestSplits_of_temporal htemporal, rfl⟩, htemporal⟩

end Oecophylla.Dataset
