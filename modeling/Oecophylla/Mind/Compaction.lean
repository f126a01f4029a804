import Oecophylla.Mind.Admission
import Oecophylla.Ranker.TorchNrms

namespace Oecophylla.Mind

open Lib (stableSort except_bind_eq_ok)
open Ranker (lastOf scoreRequests Embedding Elementary NRMSLikeRanker)

/-!
# The inputs of the sealed benchmark — `benchmark_winner` of `ai_pipeline/continuation.py`

The test requests of the dataset are cut to the history that the winner reads, and only the articles
that they need are kept, under new places.

* `compact` — the requests, the articles and the vectors of the benchmark;
* `getElem?_kept` — behind a new place is what was behind the old one;
* `validateHoldout_compact` — the benchmark takes what it would take uncut;
* `compact_preserves` — and a ranker that reads no more history gives the scores that it gave.
-/

section Model

variable {F : Type}

/-- `{**row, "history": row["history"][-cap:]}`. -/
def cutHistory (cap : Nat) (row : Request) : Request := { row with history := lastOf cap row.history }

/-- `sorted({index for row in requests for index in row["history"] + row["candidates"]})`. -/
def neededIndices (requests : List Request) : List Nat :=
  stableSort compare (requests.flatMap fun row => row.history ++ row.candidates).eraseDups

/-- The request with the new places of its articles. -/
def reindex (needed : List Nat) (row : Request) : Request :=
  { row with
    history := row.history.map fun index => needed.idxOf index
    candidates := row.candidates.map fun index => needed.idxOf index }

/-- `items[index]`. -/
def itemAt {α : Type} (items : List α) (index : Nat) : Except Raised α :=
  match items[index]? with
  | some item => .ok item
  | none => .error .indexError

/-- The inputs of a benchmark. -/
structure BenchmarkInputs (F : Type) where
  articles : List Article
  requests : List Request
  vectors : Vectors F

/-- What `benchmark_winner` writes for the benchmark, for a winner that reads `cap` articles. -/
def compact (cap : Nat) (articles : List Article) (requests : List Request) (vectors : Vectors F) :
    Except Raised (BenchmarkInputs F) := do
  let cut := (requests.filter fun row => row.split = .test).map (cutHistory cap)
  let needed := neededIndices cut
  let articles ← needed.mapM (itemAt articles)
  let rows ← needed.mapM (itemAt vectors.rows)
  pure ⟨articles, cut.map (reindex needed), ⟨vectors.width, rows⟩⟩

end Model

section Reading

variable {F α : Type} {needed : List Nat} {items kept : List α}

theorem mem_neededIndices {requests : List Request} {index : Nat} :
    index ∈ neededIndices requests
      ↔ ∃ row ∈ requests, index ∈ row.history ++ row.candidates := by
  unfold neededIndices
  rw [Lib.mem_stableSort, List.mem_eraseDups, List.mem_flatMap]

/-- Behind the new place of an index that is needed is what was behind it. -/
theorem getElem?_kept (h : needed.mapM (itemAt items) = .ok kept) {index : Nat}
    (hindex : index ∈ needed) : kept[needed.idxOf index]? = items[index]? := by
  have hmap := congrArg (fun l => l[needed.idxOf index]?) (Lib.mapM_eq_ok_iff.mp h)
  simp only [List.getElem?_map, List.getElem?_idxOf hindex, Option.map_some] at hmap
  unfold itemAt at hmap
  cases hitem : items[index]? with
  | none =>
    rw [hitem] at hmap
    cases hkept : kept[needed.idxOf index]? with
    | none => rfl
    | some item =>
      rw [hkept] at hmap
      cases hmap
  | some item =>
    rw [hitem] at hmap
    cases hkept : kept[needed.idxOf index]? with
    | none =>
      rw [hkept] at hmap
      cases hmap
    | some item' =>
      rw [hkept] at hmap
      cases hmap
      rfl

theorem map_kept (h : needed.mapM (itemAt items) = .ok kept) {indices : List Nat}
    (hindices : ∀ index ∈ indices, index ∈ needed) :
    (indices.map fun index => needed.idxOf index).map (fun index => kept[index]?)
      = indices.map fun index => items[index]? := by
  rw [List.map_map]
  exact List.map_congr_left fun index hindex => getElem?_kept h (hindices index hindex)

theorem length_kept (h : needed.mapM (itemAt items) = .ok kept) : kept.length = needed.length := by
  have hlength := congrArg List.length (Lib.mapM_eq_ok_iff.mp h)
  rw [List.length_map, List.length_map] at hlength
  exact hlength.symm

theorem map_lastOf_eq {β : Type} (f : α → β) (n : Nat) (l : List α) :
    (lastOf n l).map f = lastOf n (l.map f) := by
  unfold lastOf
  split
  · rfl
  · rw [List.map_drop, List.length_map]

/-- The end of an end. -/
theorem lastOf_lastOf {n cap : Nat} (hn : n ≠ 0) (hcap : n ≤ cap) (l : List α) :
    lastOf n (lastOf cap l) = lastOf n l := by
  unfold lastOf
  rw [if_neg hn, if_neg hn, if_neg (by omega), List.drop_drop, List.length_drop]
  congr 1
  omega

end Reading

section Compact

variable {F : Type} {cap : Nat} {articles : List Article} {requests : List Request}
  {vectors : Vectors F} {inputs : BenchmarkInputs F}

/-- What a compaction that returns is made of. -/
theorem compact_eq_ok (h : compact cap articles requests vectors = .ok inputs) :
    ∃ needed rows, needed = neededIndices
        ((requests.filter fun row => row.split = .test).map (cutHistory cap))
      ∧ needed.mapM (itemAt articles) = .ok inputs.articles
      ∧ needed.mapM (itemAt vectors.rows) = .ok rows
      ∧ inputs.vectors = ⟨vectors.width, rows⟩
      ∧ inputs.requests = ((requests.filter fun row => row.split = .test).map (cutHistory cap)).map
        (reindex needed) := by
  unfold compact at h
  rw [except_bind_eq_ok] at h
  obtain ⟨kept, hkept, h⟩ := h
  rw [except_bind_eq_ok] at h
  obtain ⟨rows, hrows, h⟩ := h
  cases h
  exact ⟨_, rows, rfl, hkept, hrows, rfl, rfl⟩

/-- The indices of a cut request are needed. -/
theorem mem_needed {row : Request}
    (hrow : row ∈ (requests.filter fun row => row.split = .test).map (cutHistory cap)) {index : Nat}
    (hindex : index ∈ row.candidates ++ row.history) : index ∈ neededIndices
      ((requests.filter fun row => row.split = .test).map (cutHistory cap)) := by
  refine mem_neededIndices.mpr ⟨row, hrow, ?_⟩
  rcases List.mem_append.mp hindex with h | h
  · exact List.mem_append_right _ h
  · exact List.mem_append_left _ h

/-- **Acceptance.**  When the benchmark would take the test requests as they are in the dataset, it
    takes the compact ones, with no more history than the winner reads. -/
theorem validateHoldout_compact {np : Numpy F} {dimension : Nat} {historyLimit : Int}
    (h : compact cap articles requests vectors = .ok inputs) (hcap : cap ≠ 0)
    (hvalid : validateHoldout np (requests.filter fun row => row.split = .test) vectors dimension
      historyLimit = .ok ()) :
    validateHoldout np inputs.requests inputs.vectors dimension cap = .ok () := by
  obtain ⟨needed, rows, hneeded, hkept, hrows, hvectors, hrequests⟩ := compact_eq_ok h
  obtain ⟨hne, hunit, hacceptable, hnodup⟩ := validateHoldout_eq_ok_iff.mp hvalid
  rw [hvectors, hrequests, validateHoldout_eq_ok_iff]
  have hall : ∀ row ∈ rows, row ∈ vectors.rows := by
    intro row hrow
    obtain ⟨index, -, hindex⟩ := Lib.exists_of_mem_mapM hrows hrow
    unfold itemAt at hindex
    split at hindex
    · next item hitem =>
      cases hindex
      exact List.mem_of_getElem? hitem
    · cases hindex
  refine ⟨?_, ?_, fun row hrow => ?_, ?_⟩
  · simpa using hne
  · -- the kept rows are some of the rows
    unfold Vectors.valid at hunit ⊢
    simp only [beq_self_eq_true, Bool.true_and, Bool.and_eq_true, beq_iff_eq, List.all_eq_true]
      at hunit ⊢
    exact ⟨hunit.1, fun row hrow => hunit.2 row (hall row hrow)⟩
  · obtain ⟨cut, hcut, rfl⟩ := List.mem_map.mp hrow
    obtain ⟨original, horiginal, rfl⟩ := List.mem_map.mp hcut
    have ha := hacceptable original horiginal
    have hin {index : Nat} (hindex : index ∈ (cutHistory cap original).candidates
        ++ (cutHistory cap original).history) : index ∈ needed := hneeded ▸ mem_needed hcut hindex
    constructor
    · exact ha.split
    · exact ha.groups
    · refine ⟨?_, ?_⟩
      · show 2 ≤ (original.candidates.map fun index => needed.idxOf index).length
        rw [List.length_map]
        exact ha.slate.1
      · refine ha.slate.2.map_on fun a hmem b _ heq => ?_
        exact (List.idxOf_inj (hin (List.mem_append_left _ hmem))).mp heq
    · refine ⟨?_, ha.labels.2⟩
      show (original.candidates.map fun index => needed.idxOf index).length = _
      rw [List.length_map]
      exact ha.labels.1
    · show ((((lastOf cap original.history).map fun index => needed.idxOf index).length : Nat) : Int)
        ≤ cap
      rw [List.length_map]
      unfold lastOf
      rw [if_neg hcap, List.length_drop]
      omega
    · intro index hindex
      have hplace : ∃ i ∈ needed, needed.idxOf i = index := by
        rcases List.mem_append.mp hindex with hmem | hmem
        · obtain ⟨i, hi, rfl⟩ := List.mem_map.mp hmem
          exact ⟨i, hin (List.mem_append_left _ hi), rfl⟩
        · obtain ⟨i, hi, rfl⟩ := List.mem_map.mp hmem
          exact ⟨i, hin (List.mem_append_right _ hi), rfl⟩
      obtain ⟨i, hi, rfl⟩ := hplace
      show needed.idxOf i < rows.length
      rw [length_kept hrows]
      exact List.idxOf_lt_length_iff.mpr hi
  · rw [List.map_map, List.map_map]
    exact hnodup

/-- What a compact request reads. -/
theorem map_reindex {α : Type} {items kept : List α} {needed : List Nat}
    (hneeded : needed = neededIndices
      ((requests.filter fun row => row.split = .test).map (cutHistory cap)))
    (hkept : needed.mapM (itemAt items) = .ok kept) {row : Request}
    (hrow : row ∈ requests.filter fun row => row.split = .test) :
    (reindex needed (cutHistory cap row)).candidates.map (fun index => kept[index]?)
        = row.candidates.map (fun index => items[index]?)
      ∧ (reindex needed (cutHistory cap row)).history.map (fun index => kept[index]?)
        = lastOf cap (row.history.map fun index => items[index]?) := by
  have hcut : cutHistory cap row
      ∈ (requests.filter fun row => row.split = .test).map (cutHistory cap) :=
    List.mem_map_of_mem hrow
  constructor
  · exact map_kept hkept fun index hindex =>
      hneeded ▸ mem_needed hcut (List.mem_append_left _ hindex)
  · rw [← map_lastOf_eq]
    exact map_kept hkept fun index hindex =>
      hneeded ▸ mem_needed hcut (List.mem_append_right _ hindex)

/-- **The sealed benchmark is the holdout.**  Behind the new places are the articles that were behind
    the old ones, and nothing else of a request is changed but that its history is cut.  The benchmark
    takes the requests when it would have taken them uncut, and every ranker that reads no more
    history than the cut leaves gives each of them the scores that it had. -/
theorem compact_preserves {F : Type} [Field F] [LinearOrder F] {heads width : Nat}
    {rows rows' : List (Embedding F heads width)} {articles' : List Article}
    {requests' : List Request} (hcap : cap ≠ 0)
    (h : compact cap articles requests ⟨heads * width, rows⟩
      = .ok ⟨articles', requests', ⟨heads * width, rows'⟩⟩) :
    let test := requests.filter fun row => row.split = .test
    List.Forall₂ (fun row row' => row'.requestGroup = row.requestGroup
        ∧ row'.userGroup = row.userGroup ∧ row'.labels = row.labels
        ∧ row'.candidates.map (fun index => articles'[index]?)
          = row.candidates.map (fun index => articles[index]?)
        ∧ row'.history.map (fun index => articles'[index]?)
          = lastOf cap (row.history.map fun index => articles[index]?)) test requests'
      ∧ (∀ (np : Numpy F) (dimension : Nat) (historyLimit : Int),
        validateHoldout np test ⟨heads * width, rows⟩ dimension historyLimit = .ok () →
          validateHoldout np requests' ⟨heads * width, rows'⟩ dimension cap = .ok ())
      ∧ ∀ (el : Elementary F) (ranker : NRMSLikeRanker F heads width),
        ranker.architecture.historyLength ≠ 0 → ranker.architecture.historyLength ≤ cap →
          scoreRequests el ranker (requests'.map fun row => (row.history, row.candidates))
              (fun index => rows'[index]?.getD 0)
            = scoreRequests el ranker (test.map fun row => (row.history, row.candidates))
              (fun index => rows[index]?.getD 0) := by
  obtain ⟨needed, kept, hneeded, harticles, hrows, hvectors, hrequests⟩ := compact_eq_ok h
  dsimp only at harticles hvectors hrequests
  obtain rfl : rows' = kept := by simpa using hvectors
  refine ⟨?_, fun np dimension historyLimit hvalid => validateHoldout_compact h hcap hvalid,
    fun el ranker hlength hle => ?_⟩
  · rw [hrequests, List.map_map, List.forall₂_map_right_iff, List.forall₂_same]
    intro row hrow
    obtain ⟨hcandidates, hhistory⟩ := map_reindex hneeded harticles hrow
    exact ⟨rfl, rfl, rfl, hcandidates, hhistory⟩
  · unfold scoreRequests
    rw [hrequests, List.map_map, List.map_map, List.map_map, List.map_map]
    refine List.map_congr_left fun row hrow => ?_
    obtain ⟨hcandidates, hhistory⟩ := map_reindex hneeded hrows hrow
    -- the two histories that the ranker reads, and the two slates
    have hread := congrArg (fun l => (lastOf ranker.architecture.historyLength l).map
      fun item : Option (Embedding F heads width) => item.getD 0) hhistory
    simp only [lastOf_lastOf hlength hle, ← map_lastOf_eq, List.map_map] at hread
    have hslate := congrArg (List.map fun item : Option (Embedding F heads width) => item.getD 0)
      hcandidates
    rw [List.map_map, List.map_map] at hslate
    show (((reindex needed (cutHistory cap row)).candidates.map fun candidate =>
        ∑ d, (rows'[candidate]?.getD 0) d
          * (ranker.prepareUserContext el ((lastOf ranker.architecture.historyLength
            (reindex needed (cutHistory cap row)).history).map fun index => rows'[index]?.getD 0)
            none).vector d))
      = row.candidates.map fun candidate => ∑ d, (rows[candidate]?.getD 0) d
          * (ranker.prepareUserContext el ((lastOf ranker.architecture.historyLength
            row.history).map fun index => rows[index]?.getD 0) none).vector d
    have huser : ((lastOf ranker.architecture.historyLength
          (reindex needed (cutHistory cap row)).history).map fun index => rows'[index]?.getD 0)
        = (lastOf ranker.architecture.historyLength row.history).map fun index =>
          rows[index]?.getD 0 := hread
    rw [huser]
    generalize (ranker.prepareUserContext el _ none).vector = user
    have hscores := congrArg
      (List.map fun embedding : Embedding F heads width => ∑ d, embedding d * user d) hslate
    rw [List.map_map, List.map_map] at hscores
    exact hscores

/-- Four articles, of which a request with two earlier reads needs three when it is cut to one. -/
def fourArticles : List Article :=
  [⟨"g0", "ants", "news", ""⟩, ⟨"g1", "bees", "news", ""⟩, ⟨"g2", "cats", "news", ""⟩,
    ⟨"g3", "dogs", "news", ""⟩]

def fourRows : List (Embedding ℚ 1 1) := [fun _ => 1, fun _ => 1, fun _ => -1, fun _ => 1]

/-- The request and its compact form score alike. -/
theorem compact_preserves_fourArticles :
    compact 1 fourArticles [⟨"r", "u", "2019-11-15T08:55:22+00:00", [0, 1], [2, 3], [0, 1], .test⟩]
        ⟨1 * 1, fourRows⟩
      = .ok ⟨fourArticles.drop 1,
        [⟨"r", "u", "2019-11-15T08:55:22+00:00", [0], [1, 2], [0, 1], .test⟩],
        ⟨1 * 1, fourRows.drop 1⟩⟩
      ∧ ∀ (el : Elementary ℚ) (ranker : NRMSLikeRanker ℚ 1 1),
        ranker.architecture.historyLength = 1 →
          scoreRequests el ranker [([0], [1, 2])] (fun index => (fourRows.drop 1)[index]?.getD 0)
            = scoreRequests el ranker [([0, 1], [2, 3])] (fun index => fourRows[index]?.getD 0) := by
  have h : compact 1 fourArticles
      [⟨"r", "u", "2019-11-15T08:55:22+00:00", [0, 1], [2, 3], [0, 1], .test⟩] ⟨1 * 1, fourRows⟩
      = .ok ⟨fourArticles.drop 1,
        [⟨"r", "u", "2019-11-15T08:55:22+00:00", [0], [1, 2], [0, 1], .test⟩],
        ⟨1 * 1, fourRows.drop 1⟩⟩ := rfl
  exact ⟨h, fun el ranker hone => (@compact_preserves 1 fourArticles _ ℚ _ _ 1 1 fourRows
    (fourRows.drop 1) _ _ (by decide) h).2.2 el ranker (by omega) (by omega)⟩

end Compact

end Oecophylla.Mind
