import Oecophylla.Dataset.SplitRows
import Oecophylla.Mind.Large
import Oecophylla.Python.Calendar

namespace Oecophylla.Mind

open Lib (stableSort except_bind_eq_ok)
open Dataset (SplitName)
open Oecophylla.Python (Datetime fromisoformat)

/-!
# The splits of the compact MIND dataset

* `loadSource_spec` — the requests of a source are in the order of their times, which are texts of
  whole seconds in UTC;
* `assignSplits_spec` — three splits, none empty, in the order of the texts;
* `prepareDataset_chronological` — the same for an accepted dataset, in the order of the instants;
* `temporal_integrity` — what the three splitters keep.
-/

/-- The instant of the text of a request: `datetime.fromisoformat(row["served_at"])`. -/
def instant (servedAt : String) : Option Int := (fromisoformat servedAt).bind Datetime.instant

/-- The text of a whole second in UTC. -/
def IsServedAt (text : String) : Prop :=
  ∃ t : Datetime, t.valid = true ∧ t.microsecond = 0 ∧ t.utcoffset = some 0 ∧ text = t.isoformat

/-! ### Texts of instants -/

/-- The days of a valid date are within the calendar. -/
theorem instant_eq {t : Datetime} (hvalid : t.valid = true) (hwhole : t.microsecond = 0)
    (hoffset : t.utcoffset = some 0) : t.instant = some t.localMicros := by
  obtain ⟨hy, hy', hm, hm', hd, hd', hh, hmi, hs⟩ := Oecophylla.Python.Datetime.valid_iff.mp hvalid
  have hlast : Oecophylla.Python.daysBefore t.year t.month + (t.day - 1)
      < Oecophylla.Python.daysBefore 10000 1 + (1 - 1) :=
    Oecophylla.Python.daysBefore_lt hy hm hm' hd' hd le_rfl le_rfl (Or.inl (by omega))
  unfold Datetime.instant Datetime.localMicros
  simp only [hoffset, hwhole, Option.getD_some, Int.sub_zero]
  unfold Oecophylla.Python.dayMicros
  generalize Oecophylla.Python.daysBefore t.year t.month = days at *
  generalize Oecophylla.Python.daysBefore 10000 1 = all at *
  rw [if_pos (by omega)]

/-- **Texts in their order** are instants in their order. -/
theorem instant_lt {a b : String} (ha : IsServedAt a) (hb : IsServedAt b) (hlt : a < b) :
    ∃ x y, instant a = some x ∧ instant b = some y ∧ x < y := by
  obtain ⟨t, hvalid, hwhole, hoffset, rfl⟩ := ha
  obtain ⟨t', hvalid', hwhole', hoffset', rfl⟩ := hb
  have hproper {t : Datetime} (hvalid : t.valid = true) (hwhole : t.microsecond = 0)
      (hoffset : t.utcoffset = some 0) : instant t.isoformat = some t.localMicros := by
    have hp : t.Proper := ⟨hvalid, by omega, by
      intro o ho
      rw [hoffset] at ho
      cases ho
      decide⟩
    have hkept : t.OffsetKept := by
      intro o ho
      rw [hoffset] at ho
      cases ho
      exact .inl rfl
    rw [instant, Oecophylla.Python.fromisoformat_isoformat hp hkept, Option.bind_some,
      instant_eq hvalid hwhole hoffset]
  exact ⟨_, _, hproper hvalid hwhole hoffset, hproper hvalid' hwhole' hoffset',
    Oecophylla.Python.localMicros_lt_of_isoformat_lt hvalid hvalid' hwhole hwhole'
      (hoffset.trans hoffset'.symm) (String.lt_iff_toList_lt.mp hlt)⟩

/-! ### One source -/

variable {rt : Runtime}

/-- A parsed time is a valid whole second. -/
theorem strptime_spec {text : List Char} {t : Datetime} (h : strptime text = some t) :
    t.valid = true ∧ t.microsecond = 0 := by
  unfold strptime at h
  split at h
  · split at h
    · simp only [Option.bind_eq_bind, Option.bind_eq_some_iff, Option.ite_none_right_eq_some,
        Option.some.injEq] at h
      obtain ⟨_, -, _, -, _, -, _, -, _, -, _, -, _, -, _, -, _, -, ⟨-, hvalid⟩, rfl⟩ := h
      exact ⟨hvalid, rfl⟩
    · cases h
  · cases h

theorem isServedAt_of_parseTimestamp {value : String} {t : Datetime}
    (h : parseTimestamp value = .ok t) : IsServedAt t.isoformat := by
  unfold parseTimestamp at h
  split at h
  · next parsed hparsed =>
    rw [Except.ok.injEq] at h
    subst h
    obtain ⟨hvalid, hwhole⟩ := strptime_spec hparsed
    have hzone : { parsed with utcoffset := some 0 }.valid = true := hvalid
    exact ⟨{ parsed with utcoffset := some 0 }, hzone, hwhole, rfl, rfl⟩
  · cases h

/-- The requests of a source carry times of whole seconds. -/
theorem parseRows_spec {source salt : String} {historyLimit : Nat} {seen seen' : List String}
    {rows : List (List String)} {parsed : List Parsed}
    (h : parseRows rt source salt historyLimit seen rows = .ok (seen', parsed)) :
    ∀ row ∈ parsed, IsServedAt row.servedAt := by
  induction rows generalizing seen parsed with
  | nil =>
    cases h
    intro row hrow
    cases hrow
  | cons row rows ih =>
    unfold parseRows at h
    rw [except_bind_eq_ok] at h
    obtain ⟨⟨identity, first⟩, hfirst, h⟩ := h
    rw [except_bind_eq_ok] at h
    obtain ⟨⟨seen'', rest⟩, hrest, h⟩ := h
    cases h
    intro r hr
    rcases List.mem_cons.mp hr with rfl | hr
    · unfold parseRow at hfirst
      split at hfirst
      · dsimp only at hfirst
        split at hfirst
        · cases hfirst
        · rw [except_bind_eq_ok] at hfirst
          obtain ⟨pairs, -, hfirst⟩ := hfirst
          rw [except_bind_eq_ok] at hfirst
          obtain ⟨servedAt, htime, hfirst⟩ := hfirst
          cases hfirst
          exact isServedAt_of_parseTimestamp htime
      · cases hfirst
    · exact ih hrest r hr

/-- **One source**: whole seconds in UTC, in the order of their texts. -/
theorem loadSource_spec {source : String} {files : SourceFiles} {args : Arguments} {limit : Int}
    {exclude : Option (List Bytes → Except Raised Bool)} {seen seen' : List String}
    {parsed : List Parsed} {audit : Audit}
    (h : loadSource rt source files args limit exclude seen = .ok (seen', parsed, audit)) :
    (∀ row ∈ parsed, IsServedAt row.servedAt)
      ∧ parsed.Pairwise fun a b => a.servedAt ≤ b.servedAt := by
  unfold loadSource at h
  rw [except_bind_eq_ok] at h
  obtain ⟨⟨selected, audit'⟩, -, h⟩ := h
  dsimp only at h
  split at h
  · cases h
  · rw [except_bind_eq_ok] at h
    obtain ⟨⟨seen'', rows⟩, hrows, h⟩ := h
    cases h
    refine ⟨fun row hrow => parseRows_spec hrows row (Lib.mem_stableSort.mp hrow), ?_⟩
    have htrans : Std.TransCmp compareParsed :=
      inferInstanceAs (Std.TransCmp (compareLex (Lib.compareBy compare Parsed.servedAt)
        (Lib.compareBy compare Parsed.requestGroup)))
    refine (Lib.pairwise_stableSort compareParsed rows).imp fun {a b} hab => ?_
    unfold compareParsed at hab
    cases hcompare : compare a.servedAt b.servedAt with
    | lt => exact (compare_lt_iff_lt.mp hcompare).le
    | eq => exact (compare_eq_iff_eq.mp hcompare).le
    | gt =>
      rw [hcompare] at hab
      cases hab

/-! ### The splits -/

/-- Three splits, none empty, in the order of their times. -/
structure Chronological {ρ τ : Type} (servedAt : ρ → τ) (before : τ → τ → Prop)
    (split : ρ → SplitName) (rows : List ρ) : Prop where
  train : ∃ r ∈ rows, split r = .train
  validation : ∃ r ∈ rows, split r = .validation
  test : ∃ r ∈ rows, split r = .test
  train_validation (r s : ρ) : r ∈ rows → s ∈ rows → split r = .train → split s = .validation →
    before (servedAt r) (servedAt s)
  train_test (r s : ρ) : r ∈ rows → s ∈ rows → split r = .train → split s = .test →
    before (servedAt r) (servedAt s)
  validation_test (r s : ρ) : r ∈ rows → s ∈ rows → split r = .validation → split s = .test →
    before (servedAt r) (servedAt s)

/-- The order survives a change of the rows that keeps their splits and the order of their times. -/
theorem Chronological.map {ρ σ τ υ : Type} {servedAt : ρ → τ} {servedAt' : σ → υ}
    {before : τ → τ → Prop} {before' : υ → υ → Prop} {split : ρ → SplitName} {split' : σ → SplitName}
    {rows : List ρ} {f : ρ → σ} (h : Chronological servedAt before split rows)
    (hsplit : ∀ r, split' (f r) = split r)
    (hbefore : ∀ r ∈ rows, ∀ s ∈ rows, before (servedAt r) (servedAt s) →
      before' (servedAt' (f r)) (servedAt' (f s))) :
    Chronological servedAt' before' split' (rows.map f) := by
  have hexists {s : SplitName} (hs : ∃ r ∈ rows, split r = s) : ∃ r ∈ rows.map f, split' r = s := by
    obtain ⟨r, hr, hrs⟩ := hs
    exact ⟨f r, List.mem_map_of_mem hr, (hsplit r).trans hrs⟩
  have hpair {a b : SplitName} (hab : ∀ r s, r ∈ rows → s ∈ rows → split r = a → split s = b →
      before (servedAt r) (servedAt s)) (r s : σ) (hr : r ∈ rows.map f) (hs : s ∈ rows.map f)
      (hra : split' r = a) (hsb : split' s = b) : before' (servedAt' r) (servedAt' s) := by
    obtain ⟨r, hrow, rfl⟩ := List.mem_map.mp hr
    obtain ⟨s, hrow', rfl⟩ := List.mem_map.mp hs
    exact hbefore r hrow s hrow'
      (hab r s hrow hrow' ((hsplit r).symm.trans hra) ((hsplit s).symm.trans hsb))
  exact ⟨hexists h.train, hexists h.validation, hexists h.test, hpair h.train_validation,
    hpair h.train_test, hpair h.validation_test⟩

/-- The cutoff is not the first of at least two times. -/
theorem cutoffIndex_bounds {count : Nat} (hcount : 2 ≤ count) :
    0 < cutoffIndex count ∧ cutoffIndex count < count := by
  unfold cutoffIndex
  omega

/-- **The splits** of two sorted sources. -/
theorem assignSplits_spec {train test : List Parsed} {requests : List Split} {cutoff : String}
    (htrain : train.Pairwise fun a b => a.servedAt ≤ b.servedAt)
    (htest : test.Pairwise fun a b => a.servedAt ≤ b.servedAt)
    (h : assignSplits train test = .ok (requests, cutoff)) :
    Chronological (fun r : Split => r.servedAt) (· < ·) Split.split requests
      ∧ ∀ r ∈ requests, r.toParsed ∈ train ∨ r.toParsed ∈ test := by
  unfold assignSplits at h
  dsimp only at h
  set times := stableSort compare (train.map Parsed.servedAt).eraseDups with htimes
  split at h
  · cases h
  next hcount =>
  split at h
  · next lastTrain firstTest cutoff' hlast hfirst hcutoff =>
    split at h
    · cases h
    next hlt =>
    cases h
    -- the times of the train source, the cutoff among them and not the first
    have hmem (time : String) : time ∈ times ↔ ∃ row ∈ train, row.servedAt = time := by
      rw [htimes, Lib.mem_stableSort, List.mem_eraseDups, List.mem_map]
    have hsorted : times.Pairwise fun a b => compare a b = .lt := by
      refine Lib.pairwise_lt_stableSort ?_
      exact (Lib.nodup_eraseDups _).imp fun hne heq => hne (compare_eq_iff_eq.mp heq)
    obtain ⟨hpos, hindex⟩ := cutoffIndex_bounds (not_lt.mp hcount)
    obtain ⟨hindex', hget⟩ := List.getElem?_eq_some_iff.mp hcutoff
    have hfirstTime : times[0] < cutoff := by
      rw [← hget]
      exact compare_lt_iff_lt.mp (List.pairwise_iff_getElem.mp hsorted _ _ (by omega) hindex' hpos)
    obtain ⟨early, hearly, hearlyTime⟩ := (hmem times[0]).mp (List.getElem_mem _)
    obtain ⟨late, hlate, hlateTime⟩ := (hmem cutoff).mp (hget ▸ List.getElem_mem hindex')
    have hlastTrain {row : Parsed} (hrow : row ∈ train) : row.servedAt ≤ lastTrain.servedAt := by
      obtain ⟨init, rfl⟩ := List.getLast?_eq_some_iff.mp hlast
      rcases List.mem_append.mp hrow with hrow | hrow
      · exact (List.pairwise_append.mp htrain).2.2 row hrow lastTrain (List.mem_singleton_self _)
      · rw [List.mem_singleton.mp hrow]
    have hfirstTest {row : Parsed} (hrow : row ∈ test) : firstTest.servedAt ≤ row.servedAt := by
      obtain ⟨rest, rfl⟩ : ∃ rest, test = firstTest :: rest := by
        cases test with
        | nil => cases hfirst
        | cons a rest =>
          cases hfirst
          exact ⟨rest, rfl⟩
      rcases List.mem_cons.mp hrow with rfl | hrow
      · exact le_rfl
      · exact (List.pairwise_cons.mp htest).1 row hrow
    have hbefore {r s : Parsed} (hr : r ∈ train) (hs : s ∈ test) : r.servedAt < s.servedAt :=
      ((hlastTrain hr).trans_lt (not_le.mp hlt)).trans_le (hfirstTest hs)
    have hcases {r : Split} (hr : r ∈ train.map (fun row : Parsed => { row with
          split := if row.servedAt < cutoff then SplitName.train else .validation : Split })
        ++ test.map fun row => { row with split := SplitName.test }) :
        (r.toParsed ∈ train ∧ r.split = if r.servedAt < cutoff then .train else .validation)
          ∨ (r.toParsed ∈ test ∧ r.split = .test) := by
      rcases List.mem_append.mp hr with hr | hr
      · obtain ⟨row, hrow, rfl⟩ := List.mem_map.mp hr
        exact Or.inl ⟨hrow, rfl⟩
      · obtain ⟨row, hrow, rfl⟩ := List.mem_map.mp hr
        exact Or.inr ⟨hrow, rfl⟩
    set rows := train.map (fun row : Parsed => { row with
          split := if row.servedAt < cutoff then SplitName.train else .validation : Split })
        ++ test.map fun row => { row with split := SplitName.test } with hrows
    have htrainOf {r : Split} (hr : r ∈ rows) (hs : r.split = .train) :
        r.toParsed ∈ train ∧ r.servedAt < cutoff := by
      rcases hcases hr with ⟨hmem, hsplit⟩ | ⟨-, hsplit⟩
      · refine ⟨hmem, ?_⟩
        by_contra hnot
        rw [if_neg hnot, hs] at hsplit
        cases hsplit
      · rw [hs] at hsplit
        cases hsplit
    have hvalidationOf {r : Split} (hr : r ∈ rows) (hs : r.split = .validation) :
        r.toParsed ∈ train ∧ cutoff ≤ r.servedAt := by
      rcases hcases hr with ⟨hmem, hsplit⟩ | ⟨-, hsplit⟩
      · refine ⟨hmem, not_lt.mp fun hlt => ?_⟩
        rw [if_pos hlt, hs] at hsplit
        cases hsplit
      · rw [hs] at hsplit
        cases hsplit
    have htestOf {r : Split} (hr : r ∈ rows) (hs : r.split = .test) : r.toParsed ∈ test := by
      rcases hcases hr with ⟨-, hsplit⟩ | ⟨hmem, -⟩
      · rw [hs] at hsplit
        split at hsplit
        · cases hsplit
        · cases hsplit
      · exact hmem
    have hin {row : Parsed} (hrow : row ∈ train) :
        ({ row with split := if row.servedAt < cutoff then .train else .validation } : Split) ∈ rows :=
      List.mem_append_left _ (List.mem_map_of_mem hrow)
    refine ⟨⟨?_, ?_, ?_, ?_, ?_, ?_⟩, ?_⟩
    · exact ⟨_, hin hearly, if_pos (by rwa [hearlyTime])⟩
    · exact ⟨_, hin hlate, if_neg (by rw [hlateTime]; exact lt_irrefl _)⟩
    · have hfirstMem : firstTest ∈ test := List.mem_of_mem_head? hfirst
      exact ⟨_, List.mem_append_right _ (List.mem_map_of_mem hfirstMem), rfl⟩
    · intro r s hr hs hrs hss
      exact (htrainOf hr hrs).2.trans_le (hvalidationOf hs hss).2
    · intro r s hr hs hrs hss
      exact hbefore (htrainOf hr hrs).1 (htestOf hs hss)
    · intro r s hr hs hrs hss
      exact hbefore (hvalidationOf hr hrs).1 (htestOf hs hss)
    · intro r hr
      rcases hcases hr with ⟨hmem, -⟩ | ⟨hmem, -⟩
      · exact Or.inl hmem
      · exact Or.inr hmem
  · cases h

/-- The instants of two texts are in their order. -/
def Earlier (a b : String) : Prop := ∃ x y, instant a = some x ∧ instant b = some y ∧ x < y

/-- **An accepted dataset** has three splits, none empty, in the order of the instants. -/
theorem prepareDataset_chronological {trainFiles devFiles : SourceFiles} {args : Arguments}
    {dataset : CompactDataset} (h : prepareDataset rt trainFiles devFiles args = .ok dataset) :
    Chronological Request.servedAt Earlier Request.split dataset.requests := by
  unfold prepareDataset at h
  split at h
  · cases h
  rw [except_bind_eq_ok] at h
  obtain ⟨⟨seen, train, trainAudit⟩, htrain, h⟩ := h
  dsimp only at h
  rw [except_bind_eq_ok] at h
  obtain ⟨⟨seen', test, devAudit⟩, htest, h⟩ := h
  rw [except_bind_eq_ok] at h
  obtain ⟨⟨requests, cutoff⟩, hassign, h⟩ := h
  rw [except_bind_eq_ok] at h
  obtain ⟨news, -, h⟩ := h
  split at h
  · cases h
  cases h
  obtain ⟨htrainTimes, htrainSorted⟩ := loadSource_spec htrain
  obtain ⟨htestTimes, htestSorted⟩ := loadSource_spec htest
  obtain ⟨hsplits, hsources⟩ := assignSplits_spec htrainSorted htestSorted hassign
  have htimes {r : Split} (hr : r ∈ requests) : IsServedAt r.servedAt := by
    rcases hsources r hr with hmem | hmem
    · exact htrainTimes _ hmem
    · exact htestTimes _ hmem
  exact hsplits.map (fun _ => rfl) fun r hr s hs hlt => instant_lt (htimes hr) (htimes hs) hlt

/-! ### All splitters -/

open Dataset (DatasetRow RankingDatasetRow TemporalSplit SameEnvelope RankingEnvelopes splitRows
  splitRankingRows)

/-- **Temporal integrity.**  Whatever the fractions, `_split_rows` ends without its assertion and
    `_split_ranking_rows` ends, both with a temporal split of their rows; and an accepted MIND
    dataset has three splits, none empty, in the order of the instants. -/
theorem temporal_integrity {F : Type} (rows : List (DatasetRow F))
    (rankingRows : List (RankingDatasetRow F)) (trainFraction validationFraction : ℚ)
    (hrows : SameEnvelope DatasetRow.auditRequestIdentity DatasetRow.servedMicros rows)
    (hranking : RankingEnvelopes rankingRows) (rt : Runtime) (trainFiles devFiles : SourceFiles)
    (args : Arguments) (dataset : CompactDataset)
    (hdataset : prepareDataset rt trainFiles devFiles args = .ok dataset) :
    (∃ result, splitRows rows trainFraction validationFraction = .ok result
        ∧ TemporalSplit DatasetRow.auditRequestIdentity DatasetRow.servedMicros DatasetRow.split
          DatasetRow.replaceSplit rows result)
      ∧ TemporalSplit RankingDatasetRow.auditRequestIdentity RankingDatasetRow.servedMicros
        RankingDatasetRow.split RankingDatasetRow.replaceSplit rankingRows
        (splitRankingRows rankingRows trainFraction validationFraction)
      ∧ Chronological Request.servedAt Earlier Request.split dataset.requests :=
  ⟨Dataset.splitRows_temporal hrows trainFraction validationFraction,
    Dataset.temporalSplit_splitRankingRows hranking trainFraction validationFraction,
    prepareDataset_chronological hdataset⟩

/-! ### A small dataset -/

private def trainLines : List String :=
  ["1\tU1\t11/11/2019 9:05:58 AM\tN1\tN1-1 N2-0\n",
    "2\tU2\t11/12/2019 6:11:30 PM\tN2\tN1-0 N2-1\n"]

private def devLine : String := "3\tU3\t11/15/2019 8:55:22 AM\tN1\tN2-1 N1-0\n"

private def digests : List (Bytes × Bytes) :=
  [(encode "7:U1:1",
    [140, 35, 177, 154, 244, 51, 144, 172, 172, 7, 149, 0, 7, 187, 41, 94,
      91, 53, 139, 130, 223, 95, 8, 19, 90, 24, 82, 183, 69, 8, 163, 105]),
   (encode "7:U2:2",
    [118, 89, 167, 73, 87, 135, 244, 126, 179, 165, 50, 69, 167, 206, 162, 249,
      110, 147, 31, 68, 31, 164, 153, 85, 127, 28, 232, 62, 79, 29, 170, 85]),
   (encode "7:U3:3",
    [227, 64, 53, 93, 7, 59, 253, 190, 191, 72, 91, 91, 166, 56, 218, 113,
      205, 37, 138, 22, 155, 127, 48, 162, 182, 23, 91, 79, 109, 230, 35, 55])]

private def identifiers : List (String × String) :=
  [("mind-request:MINDlarge_train:U1:1",
      "d63835d6587164fdc88e8d14e7f9b371acabb616db686b0924af28487c246810"),
    ("mind-request:MINDlarge_train:U2:2",
      "54b50c965966e357914f50c322f71407663b44817729b7a74795e6cc113e545b"),
    ("mind-request:MINDlarge_dev:U3:3",
      "19b5f8f695ce83969efc73259566a3858d3b333e331f4de33ff9d06b3476679c"),
    ("mind-user:U1",
      "0bb05e6bdb309951ed3732e48e3e6e723cf186841a348bdd4cc166d70603a2e9"),
    ("mind-user:U2",
      "17bbd2a3033f8c14447c70bb5d8a9c941e180067527e56e460b9a8eccaa92cf9"),
    ("mind-user:U3",
      "eb2bc3f2b16fb3415b39de01fef064dfe79ad45058735efce5de9a3aab792a12"),
    ("mind-article:N1",
      "781119fac5eca51357f048a72b8fd2d686da23361a828c7f7608924e1e9f16e6"),
    ("mind-article:N2",
      "156a8ef0f7c5e69f6a5ee71e772b3f0a399343c06e002d4fb22cf64f8925defe")]

private def fileDigests : List (Bytes × String) :=
  [(encode (trainLines.foldl (· ++ ·) ""),
      "59c3f001c06490cdd9b8b4828b18d0226c76cfd0a7aac04b66dbe4d5809564bb"),
    (encode devLine, "cddf36eb1ba55c41358434614be948431823b30166a123e0539fb8dc01b8e134"),
    ([], "e3b0c44298fc1c149afbf4c8996fb92427ae41e4649b934ca495991b7852b855")]

private def runtime : Runtime where
  unicode := ⟨fun s => s, fun s => s, fun s => s⟩
  sha256 data := (digests.lookup data).getD []
  sha256Hex data := (fileDigests.lookup data).getD ""
  hmacSha256 _ text := (identifiers.lookup text).getD ""

private def trainSource : SourceFiles where
  behaviors := trainLines.map encode
  news :=
    ["N1\tnews\tworld\tAnts\tweave leaves\t\t[]\t[]\n", "N2\tnews\tworld\tBees\tdance\t\t[]\t[]\n"]
  newsSha256 := "d4412409b93c822e9b2ba9079db17bd2c76df9902097da11d292859d48809d00"

private def devSource : SourceFiles where
  behaviors := [encode devLine]
  news := []
  newsSha256 := "e3b0c44298fc1c149afbf4c8996fb92427ae41e4649b934ca495991b7852b855"

private def arguments : Arguments := ⟨2, 1, 7, "s", 20, []⟩

private def inMay (day hour : Nat) : Oecophylla.Python.Timestamp :=
  ⟨⟨2026, 5, day, hour, 0, 0, 0, some 0⟩, rfl⟩

private def datasetRow (sampleId request : String) (day : Nat) : DatasetRow Unit where
  sampleId := sampleId
  userGroup := none
  postGroup := none
  requestGroup := none
  split := .train
  label := 1
  labelName := .click
  servedAt := inMay day 9
  visibleAt := inMay day 10
  position := 0
  feedSource := "ranked"
  modelVersion := "heuristic-v1"
  featureSchemaVersion := "v1"
  topicRelevance := none
  freshness := none
  safetyScore := none
  candidateSource := "trending"
  isFollowedAuthor := none
  authorAffinity := none
  heuristicScore := none
  mlScore := none
  auditUserId := "u"
  auditPostId := "p"
  auditRequestIdentity := request

private def rankingRow (sampleId request : String) (day : Nat) : RankingDatasetRow Unit where
  sampleId := sampleId
  requestGroup := request
  candidateGroup := "c"
  split := .train
  servedAt := inMay day 9
  visibleAt := inMay day 10
  position := 0
  served := true
  visible := true
  clickLabel := 1
  utilityLabel := 1
  utilityLabelName := .click
  article := { articleGroup := "a", representationType := "mind-text-v1" }
  history := []
  feedSource := "ranked"
  modelVersion := "heuristic-v1"
  sourceFormat := "oecophylla"
  auditRequestIdentity := request

private def datasetRows : List (DatasetRow Unit) :=
  [datasetRow "s1" "r1" 1, datasetRow "s2" "r1" 1, datasetRow "s3" "r2" 2, datasetRow "s4" "r3" 2]

private def rankingRows : List (RankingDatasetRow Unit) :=
  [rankingRow "s1" "r1" 1, rankingRow "s2" "r1" 1, rankingRow "s3" "r2" 2, rankingRow "s4" "r3" 2]

private theorem arguments_accepted :
    ∃ dataset, prepareDataset runtime trainSource devSource arguments = .ok dataset := by
  have hok : (prepareDataset runtime trainSource devSource arguments).isOk = true := by
    decide +kernel
  cases h : prepareDataset runtime trainSource devSource arguments with
  | error e =>
    rw [h] at hok
    cases hok
  | ok dataset => exact ⟨dataset, rfl⟩

theorem temporal_integrity_small :
    (∃ result, splitRows datasetRows (7 / 10) (3 / 20) = .ok result
        ∧ TemporalSplit DatasetRow.auditRequestIdentity DatasetRow.servedMicros DatasetRow.split
          DatasetRow.replaceSplit datasetRows result)
      ∧ TemporalSplit RankingDatasetRow.auditRequestIdentity RankingDatasetRow.servedMicros
        RankingDatasetRow.split RankingDatasetRow.replaceSplit rankingRows
        (splitRankingRows rankingRows (7 / 10) (3 / 20))
      ∧ ∃ dataset, prepareDataset runtime trainSource devSource arguments = .ok dataset
        ∧ Chronological Request.servedAt Earlier Request.split dataset.requests := by
  obtain ⟨dataset, hdataset⟩ := arguments_accepted
  have hrows : SameEnvelope DatasetRow.auditRequestIdentity DatasetRow.servedMicros datasetRows := by
    unfold SameEnvelope
    decide
  have hranking : RankingEnvelopes rankingRows := by
    unfold RankingEnvelopes SameEnvelope
    decide
  have h := temporal_integrity datasetRows rankingRows (7 / 10) (3 / 20) hrows hranking runtime
    trainSource devSource arguments dataset hdataset
  exact ⟨h.1, h.2.1, dataset, hdataset, h.2.2⟩

end Oecophylla.Mind
