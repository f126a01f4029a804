import Oecophylla.Dataset.Split
import Oecophylla.Lib.Grouping

namespace Oecophylla.Dataset

open Lib (stableSort groupsBy)

/-!
# What a split by time keeps — `build_dataset.py`

Two splitters order the requests by their times and cut the list twice: `_split_rows` for the rows
of version 1 and `_split_ranking_rows` for the ranking rows.  They move a cut that parts requests of
one time in different ways.

* `TemporalSplit` — what a split must keep: the rows, the requests, and the order of time;
* `lt_of_not_straddles` — a cut between two times has the earlier requests on its left;
* `not_straddles_leftBoundary`, `not_straddles_snapSplitBoundary` — where the cuts end up;
* `temporalSplit_of_groups` — cutting the ordered requests at such places is a temporal split.
-/

/-- The rows of a split dataset, by the request, the time of serving and the split of each row. -/
structure TemporalSplit {ρ : Type} (identity : ρ → String) (servedAt : ρ → Int)
    (split : ρ → SplitName) (replaceSplit : SplitName → ρ → ρ) (rows result : List ρ) : Prop where
  /-- The same rows, but for their splits. -/
  perm : (result.map (replaceSplit .train)).Perm (rows.map (replaceSplit .train))
  /-- One request is in one split. -/
  atomic (r s : ρ) : r ∈ result → s ∈ result → identity r = identity s → split r = split s
  train_validation (r s : ρ) : r ∈ result → s ∈ result → split r = .train →
    split s = .validation → servedAt r < servedAt s
  train_test (r s : ρ) : r ∈ result → s ∈ result → split r = .train → split s = .test →
    servedAt r < servedAt s
  validation_test (r s : ρ) : r ∈ result → s ∈ result → split r = .validation →
    split s = .test → servedAt r < servedAt s

/-! ### Cuts -/

/-- A cut that does not part requests of one time has the earlier ones on its left. -/
theorem lt_of_not_straddles {times : List Int} (hsorted : times.Pairwise (· ≤ ·)) {cut : Nat}
    (hcut : ¬ Straddles times cut) {i j : Nat} (hi : i < cut) (hj : cut ≤ j)
    (hlength : j < times.length) :
    times[i] < times[j] := by
  have hle {a b : Nat} (hab : a ≤ b) (hb : b < times.length) :
      times[a] ≤ times[b] := by
    rcases hab.lt_or_eq with hlt | rfl
    · exact List.pairwise_iff_getElem.mp hsorted a b (by omega) hb hlt
    · exact le_rfl
  -- the two requests at the cut have different times
  have hne : times[cut - 1] ≠ times[cut] := by
    intro heq
    refine hcut ⟨by omega, by omega, ?_⟩
    rw [List.getElem?_eq_getElem (by omega), List.getElem?_eq_getElem (by omega), heq]
  calc times[i] ≤ times[cut - 1] := hle (by omega) (by omega)
    _ < times[cut] := lt_of_le_of_ne (hle (by omega) (by omega)) hne
    _ ≤ times[j] := hle hj hlength

/-- The loop to the left stops between two times, or at the start. -/
theorem not_straddles_leftBoundary (times : List Int) (cut : Nat) :
    ¬ Straddles times (leftBoundary times cut) := by
  induction cut with
  | zero => exact fun h => absurd h.1 (lt_irrefl 0)
  | succ cut ih =>
    unfold leftBoundary
    split
    · exact ih
    · assumption

/-- The loop to the right stops between two times, or at the end. -/
theorem not_straddles_rightBoundary {times : List Int} {rounds cut : Nat}
    (henough : times.length ≤ cut + rounds) : ¬ Straddles times (rightBoundary times rounds cut) := by
  induction rounds generalizing cut with
  | zero =>
    intro h
    have hlt := h.2.1
    unfold rightBoundary at hlt
    omega
  | succ rounds ih =>
    unfold rightBoundary
    split
    · exact ih (by omega)
    · assumption

/-- A snapped cut does not part requests of one time. -/
theorem not_straddles_snapSplitBoundary (cut : Int) (times : List Int) (prefer : Side) :
    ¬ Straddles times (snapSplitBoundary cut times prefer) := by
  unfold snapSplitBoundary
  split
  · exact fun h => absurd h.1 (lt_irrefl 0)
  split
  · exact fun h => absurd h.2.1 (lt_irrefl _)
  dsimp only
  split
  · assumption
  split
  · exact not_straddles_rightBoundary (by omega)
  · exact not_straddles_leftBoundary times _

/-- The later of two such cuts is one. -/
theorem not_straddles_max {times : List Int} {a b : Nat} (ha : ¬ Straddles times a)
    (hb : ¬ Straddles times b) : ¬ Straddles times (max a b) := by
  rcases max_choice a b with h | h
  · rwa [h]
  · rwa [h]

/-- Neither cut of the ranking rows parts requests of one time. -/
theorem not_straddles_splitBoundaries (times : List Int) (train validation : ℚ) :
    ¬ Straddles times (splitBoundaries times train validation).1
      ∧ ¬ Straddles times (splitBoundaries times train validation).2 :=
  ⟨not_straddles_snapSplitBoundary _ times .left,
    not_straddles_max (not_straddles_snapSplitBoundary _ times .left)
      (not_straddles_snapSplitBoundary _ times .right)⟩

/-! ### Cutting the ordered requests -/

section Groups

variable {ρ : Type} {identity : ρ → String} {servedAt : ρ → Int} {split : ρ → SplitName}
  {replaceSplit : SplitName → ρ → ρ}

/-- The split of a row can be replaced, and nothing else changes. -/
structure Replaces (identity : ρ → String) (servedAt : ρ → Int) (split : ρ → SplitName)
    (replaceSplit : SplitName → ρ → ρ) : Prop where
  identity (s : SplitName) (r : ρ) : identity (replaceSplit s r) = identity r
  servedAt (s : SplitName) (r : ρ) : servedAt (replaceSplit s r) = servedAt r
  split (s : SplitName) (r : ρ) : split (replaceSplit s r) = s
  again (s t : SplitName) (r : ρ) : replaceSplit s (replaceSplit t r) = replaceSplit s r

/-- The rows of one request, served at one time. -/
def SameEnvelope (identity : ρ → String) (servedAt : ρ → Int) (rows : List ρ) : Prop :=
  ∀ r ∈ rows, ∀ s ∈ rows, identity r = identity s → servedAt r = servedAt s

/-- The ordered requests, with a time for each. -/
structure OrderedRequests (identity : ρ → String) (servedAt : ρ → Int) (rows : List ρ)
    (groups : List (List ρ)) (times : List Int) : Prop where
  perm : groups.flatten.Perm rows
  one (i : Nat) (hi : i < groups.length) (r s : ρ) : r ∈ groups[i] → s ∈ groups[i] →
    identity r = identity s
  apart (i j : Nat) (hi : i < groups.length) (hj : j < groups.length) (r s : ρ) : r ∈ groups[i] →
    s ∈ groups[j] → identity r = identity s → i = j
  length : times.length = groups.length
  time (i : Nat) (hi : i < groups.length) (r : ρ) : r ∈ groups[i] →
    times.get ⟨i, length ▸ hi⟩ = servedAt r
  sorted : times.Pairwise (· ≤ ·)

/-- The rows of the requests with the splits that two cuts give them. -/
def cutAt (replaceSplit : SplitName → ρ → ρ) (groups : List (List ρ)) (trainEnd validationEnd : Nat) :
    List ρ :=
  (groups.mapIdx fun index group =>
    group.map (replaceSplit (splitAt trainEnd validationEnd index))).flatten

theorem mem_cutAt {groups : List (List ρ)} {trainEnd validationEnd : Nat} {r : ρ} :
    r ∈ cutAt replaceSplit groups trainEnd validationEnd
      ↔ ∃ i, ∃ hi : i < groups.length, ∃ source ∈ groups[i],
        r = replaceSplit (splitAt trainEnd validationEnd i) source := by
  unfold cutAt
  rw [List.mem_flatten]
  constructor
  · rintro ⟨_, hgroup, hr⟩
    obtain ⟨i, hi, rfl⟩ := List.mem_mapIdx.mp hgroup
    obtain ⟨source, hsource, rfl⟩ := List.mem_map.mp hr
    exact ⟨i, hi, source, hsource, rfl⟩
  · rintro ⟨i, hi, source, hsource, rfl⟩
    exact ⟨_, List.mem_mapIdx.mpr ⟨i, hi, rfl⟩, List.mem_map_of_mem hsource⟩

/-- Cutting changes only the splits. -/
theorem map_cutAt (hreplace : Replaces identity servedAt split replaceSplit) (groups : List (List ρ))
    (trainEnd validationEnd : Nat) :
    (cutAt replaceSplit groups trainEnd validationEnd).map (replaceSplit .train)
      = groups.flatten.map (replaceSplit .train) := by
  unfold cutAt
  rw [List.map_flatten, List.map_flatten]
  congr 1
  apply List.ext_getElem
  · simp
  · intro i _ _
    simp only [List.getElem_mapIdx, List.getElem_map, List.map_map]
    apply List.map_congr_left
    intro r _
    exact hreplace.again _ _ r

theorem splitAt_eq_train {a b i : Nat} : splitAt a b i = .train ↔ i < a := by
  unfold splitAt
  split
  · simp [*]
  · split
    · simp [*]
    · simp [*]

theorem splitAt_eq_validation {a b i : Nat} : splitAt a b i = .validation ↔ a ≤ i ∧ i < b := by
  unfold splitAt
  split
  · simp [*]
  · split
    · simp; omega
    · simp; omega

theorem splitAt_eq_test {a b i : Nat} : splitAt a b i = .test ↔ a ≤ i ∧ b ≤ i := by
  unfold splitAt
  split
  · simp [*]
  · split
    · simp; omega
    · simp; omega

/-- **Cutting the ordered requests** at places that do not part a time is a temporal split. -/
theorem temporalSplit_of_groups (hreplace : Replaces identity servedAt split replaceSplit)
    {rows result : List ρ} {groups : List (List ρ)} {times : List Int}
    (hgroups : OrderedRequests identity servedAt rows groups times) {trainEnd validationEnd : Nat}
    (htrain : ¬ Straddles times trainEnd) (hvalidation : ¬ Straddles times validationEnd)
    (hresult : result.Perm (cutAt replaceSplit groups trainEnd validationEnd)) :
    TemporalSplit identity servedAt split replaceSplit rows result := by
  have hmem {r : ρ} (hr : r ∈ result) : ∃ i, ∃ hi : i < groups.length, ∃ source ∈ groups[i],
      r = replaceSplit (splitAt trainEnd validationEnd i) source :=
    mem_cutAt.mp (hresult.mem_iff.mp hr)
  -- requests on the two sides of a cut
  have hlt {cut i j : Nat} (hcut : ¬ Straddles times cut) (hi : i < groups.length)
      (hj : j < groups.length) {r s : ρ} (hr : r ∈ groups[i]) (hs : s ∈ groups[j]) (hbefore : i < cut)
      (hafter : cut ≤ j) : servedAt r < servedAt s := by
    have hlength := hgroups.length
    rw [← hgroups.time i hi r hr, ← hgroups.time j hj s hs]
    exact lt_of_not_straddles hgroups.sorted hcut hbefore hafter (by omega)
  refine ⟨?_, ?_, ?_, ?_, ?_⟩
  · refine (hresult.map _).trans ?_
    rw [map_cutAt hreplace]
    exact hgroups.perm.map _
  · intro r s hr hs hid
    obtain ⟨i, hi, r, hrgroup, rfl⟩ := hmem hr
    obtain ⟨j, hj, s, hsgroup, rfl⟩ := hmem hs
    rw [hreplace.identity, hreplace.identity] at hid
    rw [hreplace.split, hreplace.split, hgroups.apart i j hi hj r s hrgroup hsgroup hid]
  · intro r s hr hs hrsplit hssplit
    obtain ⟨i, hi, r, hrgroup, rfl⟩ := hmem hr
    obtain ⟨j, hj, s, hsgroup, rfl⟩ := hmem hs
    rw [hreplace.split, splitAt_eq_train] at hrsplit
    rw [hreplace.split, splitAt_eq_validation] at hssplit
    rw [hreplace.servedAt, hreplace.servedAt]
    exact hlt htrain hi hj hrgroup hsgroup hrsplit hssplit.1
  · intro r s hr hs hrsplit hssplit
    obtain ⟨i, hi, r, hrgroup, rfl⟩ := hmem hr
    obtain ⟨j, hj, s, hsgroup, rfl⟩ := hmem hs
    rw [hreplace.split, splitAt_eq_train] at hrsplit
    rw [hreplace.split, splitAt_eq_test] at hssplit
    rw [hreplace.servedAt, hreplace.servedAt]
    exact hlt htrain hi hj hrgroup hsgroup hrsplit hssplit.1
  · intro r s hr hs hrsplit hssplit
    obtain ⟨i, hi, r, hrgroup, rfl⟩ := hmem hr
    obtain ⟨j, hj, s, hsgroup, rfl⟩ := hmem hs
    rw [hreplace.split, splitAt_eq_validation] at hrsplit
    rw [hreplace.split, splitAt_eq_test] at hssplit
    rw [hreplace.servedAt, hreplace.servedAt]
    exact hlt hvalidation hi hj hrgroup hsgroup hrsplit.2 hssplit.2

/-! ### The requests in the order of their times -/

/-- `min(row.served_at for row in group)`. -/
def earliest (servedAt : ρ → Int) (group : List ρ) : Int := (group.map servedAt).min?.getD 0

/-- The key `(min(served_at), identity)` by which the requests are sorted. -/
def compareRequests (identity : ρ → String) (servedAt : ρ → Int) (a b : List ρ) : Ordering :=
  (compare (earliest servedAt a) (earliest servedAt b)).then
    (compare (a.head?.map identity) (b.head?.map identity))

instance (identity : ρ → String) (servedAt : ρ → Int) :
    Std.TransCmp (compareRequests identity servedAt) :=
  inferInstanceAs (Std.TransCmp (compareLex (Lib.compareBy compare (earliest servedAt))
    (Lib.compareBy compare fun group => group.head?.map identity)))

/-- The earliest of equal times. -/
theorem earliest_eq {group : List ρ} {r : ρ} (hr : r ∈ group)
    (hsame : ∀ s ∈ group, servedAt s = servedAt r) : earliest servedAt group = servedAt r := by
  have hmin : (group.map servedAt).min? = some (servedAt r) := by
    rw [List.min?_eq_some_iff]
    refine ⟨List.mem_map_of_mem hr, fun t ht => ?_⟩
    obtain ⟨s, hs, rfl⟩ := List.mem_map.mp ht
    exact (hsame s hs).ge
  rw [earliest, hmin, Option.getD_some]

/-- **The ordered requests** of rows that agree on the time of their request. -/
theorem orderedRequests_stableSort {rows : List ρ} (hrows : SameEnvelope identity servedAt rows) :
    OrderedRequests identity servedAt rows
      (stableSort (compareRequests identity servedAt) (groupsBy identity rows))
      ((stableSort (compareRequests identity servedAt) (groupsBy identity rows)).map
        (earliest servedAt)) := by
  set groups := stableSort (compareRequests identity servedAt) (groupsBy identity rows) with hgroups
  have hperm : groups.Perm (groupsBy identity rows) := Lib.stableSort_perm _ _
  have hgroup {group : List ρ} (h : group ∈ groups) :
      ∃ k, ∀ r, r ∈ group ↔ r ∈ rows ∧ identity r = k :=
    Lib.mem_group (hperm.mem_iff.mp h)
  have hone {group : List ρ} (h : group ∈ groups) {r s : ρ} (hr : r ∈ group) (hs : s ∈ group) :
      identity r = identity s := by
    obtain ⟨k, hk⟩ := hgroup h
    rw [((hk r).mp hr).2, ((hk s).mp hs).2]
  have hmem {group : List ρ} (h : group ∈ groups) {r : ρ} (hr : r ∈ group) : r ∈ rows := by
    obtain ⟨k, hk⟩ := hgroup h
    exact ((hk r).mp hr).1
  have hapart : groups.Pairwise fun g h => ∀ a ∈ g, ∀ b ∈ h, identity a ≠ identity b :=
    (hperm.pairwise_iff fun h a ha b hb => (h b hb a ha).symm).mpr Lib.pairwise_groupsBy
  refine ⟨?_, ?_, ?_, List.length_map _, ?_, ?_⟩
  · exact hperm.flatten.trans (Lib.flatten_groupsBy_perm identity rows)
  · intro i hi r s hr hs
    exact hone (List.getElem_mem hi) hr hs
  · intro i j hi hj r s hr hs hid
    by_contra hne
    rcases Nat.lt_or_gt_of_ne hne with hlt | hgt
    · exact List.pairwise_iff_getElem.mp hapart i j hi hj hlt r hr s hs hid
    · exact List.pairwise_iff_getElem.mp hapart j i hj hi hgt s hs r hr hid.symm
  · intro i hi r hr
    rw [List.get_eq_getElem, List.getElem_map]
    refine earliest_eq hr fun s hs => ?_
    exact hrows s (hmem (List.getElem_mem hi) hs) r (hmem (List.getElem_mem hi) hr)
      (hone (List.getElem_mem hi) hs hr)
  · rw [List.pairwise_map]
    refine (Lib.pairwise_stableSort (compareRequests identity servedAt) _).imp fun {a b} hab => ?_
    unfold compareRequests at hab
    cases hcompare : compare (earliest servedAt a) (earliest servedAt b) with
    | lt => exact (compare_lt_iff_lt.mp hcompare).le
    | eq => exact (compare_eq_iff_eq.mp hcompare).le
    | gt =>
      rw [hcompare] at hab
      cases hab

/-- A single request is in one split. -/
theorem temporalSplit_of_single (hreplace : Replaces identity servedAt split replaceSplit)
    {rows group : List ρ} (hperm : group.Perm rows) :
    TemporalSplit identity servedAt split replaceSplit rows (group.map (replaceSplit .train)) := by
  have htrain {r : ρ} (hr : r ∈ group.map (replaceSplit .train)) : split r = .train := by
    obtain ⟨source, -, rfl⟩ := List.mem_map.mp hr
    exact hreplace.split _ _
  refine ⟨?_, ?_, ?_, ?_, ?_⟩
  · rw [List.map_map]
    have hagain : replaceSplit .train ∘ replaceSplit .train = replaceSplit .train :=
      funext fun r => hreplace.again _ _ r
    rw [hagain]
    exact hperm.map _
  · intro r s hr hs _
    rw [htrain hr, htrain hs]
  · intro r s _ hs _ hsplit
    rw [htrain hs] at hsplit
    cases hsplit
  · intro r s _ hs _ hsplit
    rw [htrain hs] at hsplit
    cases hsplit
  · intro r s hr _ hsplit
    rw [htrain hr] at hsplit
    cases hsplit

end Groups

/-! ### The ranking rows -/

section Ranking

variable {F : Type} {rows : List (RankingDatasetRow F)}

/-- `replace(row, split=split)`. -/
def RankingDatasetRow.replaceSplit (split : SplitName) (row : RankingDatasetRow F) :
    RankingDatasetRow F :=
  { row with split := split }

/-- The time of serving of a ranking row. -/
def RankingDatasetRow.servedMicros (row : RankingDatasetRow F) : Int := row.servedAt.micros

/-- The requests of the ranking rows agree on their times. -/
abbrev RankingEnvelopes (rows : List (RankingDatasetRow F)) : Prop :=
  SameEnvelope RankingDatasetRow.auditRequestIdentity RankingDatasetRow.servedMicros rows

theorem replaces_rankingRow :
    Replaces (ρ := RankingDatasetRow F) RankingDatasetRow.auditRequestIdentity
      RankingDatasetRow.servedMicros RankingDatasetRow.split RankingDatasetRow.replaceSplit :=
  ⟨fun _ _ => rfl, fun _ _ => rfl, fun _ _ => rfl, fun _ _ _ => rfl⟩

/-- **`_split_ranking_rows` is a temporal split**, whatever the fractions. -/
theorem temporalSplit_splitRankingRows (hrows : RankingEnvelopes rows) (train validation : ℚ) :
    TemporalSplit RankingDatasetRow.auditRequestIdentity RankingDatasetRow.servedMicros
      RankingDatasetRow.split RankingDatasetRow.replaceSplit rows
      (splitRankingRows rows train validation) := by
  have hgroups := orderedRequests_stableSort hrows
  have hordered : stableSort compareGroups (requestGroups rows)
      = stableSort (compareRequests RankingDatasetRow.auditRequestIdentity
          RankingDatasetRow.servedMicros) (groupsBy RankingDatasetRow.auditRequestIdentity rows) := rfl
  rw [← hordered] at hgroups
  unfold splitRankingRows
  split
  · next hnil =>
    rw [hnil] at hgroups
    obtain rfl : rows = [] := List.nil_perm.mp hgroups.perm
    exact temporalSplit_of_single replaces_rankingRow (List.Perm.refl [])
  · next group hgroup =>
    rw [hgroup] at hgroups
    have hperm := hgroups.perm
    rw [List.flatten_singleton] at hperm
    exact temporalSplit_of_single replaces_rankingRow hperm
  · obtain ⟨htrain, hvalidation⟩ := not_straddles_splitBoundaries
      ((stableSort compareGroups (requestGroups rows)).map groupTime) train validation
    exact temporalSplit_of_groups replaces_rankingRow hgroups htrain hvalidation
      (Lib.stableSort_perm _ _)

end Ranking

end Oecophylla.Dataset
