import Mathlib.Analysis.SpecialFunctions.Log.Base
import Oecophylla.Evaluation.Holdout
import Oecophylla.Lib.Discounted
import Oecophylla.Lib.Run

namespace Oecophylla.Evaluation

open Oecophylla.Lib (gain ideal normalized normalized_mem_Icc normalized_eq_one_iff
  normalized_swap_le sum_filterMap_zipIdx ideal_pos)

/-!
# The normalized discounted gain — `recommendation_api/app/metrics.py` and `evaluate.py`

* `ndcgAtK`, `ndcg` — of a ranking and the relevant items; `ndcgBinary` is that of its labels;
* `Numerics.Exact` — arithmetic without rounding errors;
* `ndcgAtK_eq`, `ndcg_eq`, `ndcgBinary_eq` — the three are `Lib.normalized` at the hits;
* `ndcg_laws` — the bound, the rankings that reach it, swaps, and the agreement of the three.
-/

section Code

variable {F E α : Type} [DecidableEq α] (n : Numerics F E)

/-- `_validate_k`. -/
def validateK (k : ℤ) : Except Raised Unit := raiseIf (k ≤ 0) "k must be positive"

/-- The discounts at the positions of the relevant items. -/
def relevantDiscounts (ranked : List α) (relevant : Finset α) : List F :=
  ranked.zipIdx.filterMap fun (item, rank) =>
    if item ∈ relevant then some (discount n rank) else none

/-- `ndcg_at_k`. -/
def ndcgAtK (rankedItems relevantItems : List α) (k : ℤ) : Except Raised F := do
  validateK k
  let relevant := relevantItems.toFinset
  if relevant = ∅ then
    return n.ofRat 0
  let dcg := n.sum (relevantDiscounts n (rankedItems.take k.toNat) relevant)
  let idealHits := min k.toNat relevant.card
  let idealDcg := n.sum ((List.range idealHits).map (discount n))
  return if n.eq idealDcg (n.ofRat 0) then n.ofRat 0 else n.div dcg idealDcg

/-- `_ndcg`; none is its `ZeroDivisionError`. -/
def ndcg (ranked : List α) (relevant : Finset α) (k : ℕ) : Option F :=
  if relevant = ∅ then some (n.ofRat 0)
  else
    let dcg := n.sum (relevantDiscounts n (ranked.take k) relevant)
    let ideal := n.sum ((List.range (min k relevant.card)).map (discount n))
    if n.eq ideal (n.ofRat 0) then none else some (n.div dcg ideal)

end Code

/-! ### Exact arithmetic -/

section Exact

variable {K E α : Type} [Field K] [LinearOrder K] [DecidableEq α]

/-- The arithmetic has no rounding errors. -/
structure Numerics.Exact (n : Numerics K E) : Prop where
  ofRat (q : ℚ) : n.ofRat q = q
  div (x y : K) : n.div x y = x / y
  eq (x y : K) : n.eq x y = decide (x = y)
  sum (values : List K) : n.sum values = values.sum

/-- Which positions of a ranking are relevant. -/
def hitsOf (ranked : List α) (relevant : Finset α) : List Bool :=
  ranked.map fun item => decide (item ∈ relevant)

@[simp] theorem hitsOf_append (ranked ranked' : List α) (relevant : Finset α) :
    hitsOf (ranked ++ ranked') relevant = hitsOf ranked relevant ++ hitsOf ranked' relevant :=
  List.map_append

theorem hitsOf_cons (item : α) (ranked : List α) (relevant : Finset α) :
    hitsOf (item :: ranked) relevant = decide (item ∈ relevant) :: hitsOf ranked relevant := rfl

theorem getElem?_hitsOf (ranked : List α) (relevant : Finset α) (i : ℕ) :
    (hitsOf ranked relevant)[i]? = some true ↔ ∃ x ∈ relevant, ranked[i]? = some x := by
  rw [hitsOf, List.getElem?_map, Option.map_eq_some_iff]
  constructor
  · rintro ⟨x, hx, hmem⟩
    exact ⟨x, by simpa using hmem, hx⟩
  · rintro ⟨x, hmem, hx⟩
    exact ⟨x, hx, by simpa using hmem⟩

/-- The hits of a ranking without repetition are the relevant items that it ranks. -/
theorem count_hitsOf {ranked : List α} (hnodup : ranked.Nodup) (relevant : Finset α) :
    (hitsOf ranked relevant).count true = (ranked.toFinset ∩ relevant).card := by
  have hcount : (hitsOf ranked relevant).count true
      = (ranked.filter fun item => decide (item ∈ relevant)).length := by
    rw [hitsOf, List.count_eq_countP, List.countP_map, List.countP_eq_length_filter]
    congr 2
    ext item
    simp
  rw [hcount, ← List.toFinset_card_of_nodup (hnodup.filter _)]
  congr 1
  ext item
  simp

/-- No more hits than relevant items. -/
theorem count_hitsOf_le {ranked : List α} (hnodup : ranked.Nodup) (relevant : Finset α) :
    (hitsOf ranked relevant).count true ≤ relevant.card := by
  rw [count_hitsOf hnodup]
  exact Finset.card_le_card Finset.inter_subset_right

variable {n : Numerics K E}

/-- The discounts add up to the gain of the hits. -/
theorem sum_relevantDiscounts (hn : n.Exact) (ranked : List α) (relevant : Finset α) :
    n.sum (relevantDiscounts n ranked relevant) = gain (discount n) (hitsOf ranked relevant) := by
  have hsum := sum_filterMap_zipIdx (discount n) (fun item => decide (item ∈ relevant)) ranked 0
  simp only [Nat.add_zero, decide_eq_true_eq] at hsum
  rw [hn.sum, hitsOf, ← hsum]
  rfl

/-- The 0/1 labels of a ranking. -/
def labelsOf (ranked : List α) (relevant : Finset α) : List ℤ :=
  ranked.map fun item => if item ∈ relevant then 1 else 0

theorem map_labelsOf (ranked : List α) (relevant : Finset α) :
    (labelsOf ranked relevant).map (fun label => decide (label ≠ 0)) = hitsOf ranked relevant := by
  rw [labelsOf, hitsOf, List.map_map]
  apply List.map_congr_left
  intro item _
  by_cases hitem : item ∈ relevant <;> simp [hitem]

theorem sum_labelsOf_eq_count (ranked : List α) (relevant : Finset α) :
    (labelsOf ranked relevant).sum = (hitsOf ranked relevant).count true := by
  induction ranked with
  | nil => rfl
  | cons item ranked ih =>
    rw [hitsOf_cons, labelsOf, List.map_cons, List.sum_cons]
    change _ + (labelsOf ranked relevant).sum = _
    rw [ih]
    by_cases hitem : item ∈ relevant
    · simp [hitem, Int.add_comm]
    · simp [hitem]

/-- The labels of a ranking that ranks all relevant items add up to their number. -/
theorem sum_labelsOf {ranked : List α} (hnodup : ranked.Nodup) {relevant : Finset α}
    (hsub : relevant ⊆ ranked.toFinset) : (labelsOf ranked relevant).sum = relevant.card := by
  rw [sum_labelsOf_eq_count, count_hitsOf hnodup, Finset.inter_eq_right.mpr hsub]

theorem hitsOf_take (ranked : List α) (relevant : Finset α) (k : ℕ) :
    hitsOf (ranked.take k) relevant = (hitsOf ranked relevant).take k := by
  rw [hitsOf, hitsOf, List.map_take]

section Laws

variable [IsStrictOrderedRing K] (hn : n.Exact) (hpos : ∀ i, 0 < discount n i)
  {k : ℕ} (hk : 0 < k)
include hn hpos hk

/-- The ideal gain is never the zero that the functions guard against. -/
theorem eq_ideal_zero {total : ℕ} (htotal : 0 < total) :
    n.eq (n.sum ((List.range (min k total)).map (discount n))) (n.ofRat 0) = false := by
  have hideal : 0 < ideal (discount n) (min k total) := ideal_pos hpos (by omega)
  rw [hn.sum, hn.ofRat, hn.eq, Rat.cast_zero, decide_eq_false_iff_not]
  exact hideal.ne'

/-- `ndcg` is the normalized gain of the hits. -/
theorem ndcg_eq (ranked : List α) {relevant : Finset α} (hne : relevant.Nonempty) :
    ndcg n ranked relevant k
      = some (normalized (discount n) (hitsOf ranked relevant) k relevant.card) := by
  have hzero := eq_ideal_zero hn hpos hk hne.card_pos
  simp only [ndcg, if_neg hne.ne_empty, hzero, Bool.false_eq_true, if_false]
  rw [hn.div, sum_relevantDiscounts hn, hitsOf_take, hn.sum]
  rfl

/-- So is `ndcg_at_k`. -/
theorem ndcgAtK_eq (ranked : List α) {relevantItems : List α} (hne : relevantItems ≠ []) :
    ndcgAtK n ranked relevantItems k
      = .ok (normalized (discount n) (hitsOf ranked relevantItems.toFinset) k
          relevantItems.toFinset.card) := by
  have hfin : relevantItems.toFinset.Nonempty := List.toFinset_nonempty_iff _ |>.mpr hne
  have hzero := eq_ideal_zero hn hpos hk hfin.card_pos
  have hvalid : validateK k = .ok () := by
    have hk' : k ≠ 0 := by omega
    simp [validateK, raiseIf, hk']
  simp only [ndcgAtK, hvalid, if_neg hfin.ne_empty, Int.toNat_natCast, hzero, Bool.false_eq_true,
    if_false]
  rw [hn.div, sum_relevantDiscounts hn, hitsOf_take, hn.sum]
  rfl

theorem ndcgBinary_eq {ranked : List α} (hnodup : ranked.Nodup) {relevant : Finset α}
    (hne : relevant.Nonempty) (hsub : relevant ⊆ ranked.toFinset) :
    ndcgBinary n (labelsOf ranked relevant) k
      = normalized (discount n) (hitsOf ranked relevant) k relevant.card := by
  have hsum := sum_labelsOf hnodup hsub
  have hzero := eq_ideal_zero hn hpos hk hne.card_pos
  have hany : (labelsOf ranked relevant).all (· == 0) = false := by
    obtain ⟨item, hitem⟩ := hne
    rw [List.all_eq_false]
    refine ⟨1, ?_, by simp⟩
    rw [labelsOf, List.mem_map]
    exact ⟨item, List.mem_toFinset.mp (hsub hitem), if_pos hitem⟩
  have htotal : (min (k : ℤ) relevant.card).toNat = min k relevant.card := by omega
  have hdcg := sum_filterMap_zipIdx (discount n) (fun label : ℤ => decide (label ≠ 0))
    ((labelsOf ranked relevant).take k) 0
  simp only [Nat.add_zero, decide_eq_true_eq, ite_not, List.map_take] at hdcg
  simp only [ndcgBinary, hany, Bool.false_eq_true, if_false, hsum, htotal, hzero]
  rw [hn.div, hn.sum, hdcg, map_labelsOf, hn.sum]
  rfl

end Laws

/-- For exact arithmetic with a positive discount that falls with the position, and a ranking
    without repetition: the gain is in the unit interval; it is one for the rankings that fill the
    first positions with relevant items; swapping a relevant item with an irrelevant one above it
    loses nothing; and the three functions agree on a ranking of all relevant items. -/
theorem ndcg_laws [IsStrictOrderedRing K] (hn : n.Exact) (hpos : ∀ i, 0 < discount n i)
    (hanti : StrictAnti (discount n)) {ranked : List α} (hnodup : ranked.Nodup)
    {relevantItems : List α} (hne : relevantItems ≠ []) {k : ℕ} (hk : 1 ≤ k) :
    ∃ value : K, ndcgAtK n ranked relevantItems k = .ok value
      ∧ value ∈ Set.Icc 0 1
      ∧ (value = 1 ↔ ∀ i < min k relevantItems.toFinset.card,
          ∃ item ∈ relevantItems, ranked[i]? = some item)
      ∧ (∀ above between below : List α, ∀ x y : α,
          ranked = above ++ x :: (between ++ y :: below) → x ∉ relevantItems →
          y ∈ relevantItems → ∃ swapped : K,
            ndcgAtK n (above ++ y :: (between ++ x :: below)) relevantItems k = .ok swapped
              ∧ value ≤ swapped)
      ∧ (relevantItems ⊆ ranked →
          ndcg n ranked relevantItems.toFinset k = some value
            ∧ ndcgBinary n (labelsOf ranked relevantItems.toFinset) k = value) := by
  have hfin : relevantItems.toFinset.Nonempty := List.toFinset_nonempty_iff _ |>.mpr hne
  have hcount := count_hitsOf_le hnodup relevantItems.toFinset
  refine ⟨_, ndcgAtK_eq hn hpos hk ranked hne,
    normalized_mem_Icc hpos hanti hk hfin.card_pos hcount, ?_, ?_, ?_⟩
  · rw [normalized_eq_one_iff hpos hanti hk hfin.card_pos hcount]
    simp only [getElem?_hitsOf, List.mem_toFinset]
  · rintro above between below x y rfl hx hy
    refine ⟨_, ndcgAtK_eq hn hpos hk _ hne, ?_⟩
    have hswap := normalized_swap_le hpos hanti hk hfin.card_pos
      (hitsOf above relevantItems.toFinset) (hitsOf between relevantItems.toFinset)
      (hitsOf below relevantItems.toFinset)
    simpa [hitsOf_cons, hx, hy] using hswap
  · intro hsub
    have hsub' : relevantItems.toFinset ⊆ ranked.toFinset := by
      intro item hitem
      exact List.mem_toFinset.mpr (hsub (List.mem_toFinset.mp hitem))
    exact ⟨ndcg_eq hn hpos hk ranked hfin, ndcgBinary_eq hn hpos hk hnodup hfin hsub'⟩

end Exact

/-! ### The logarithmic discount -/

attribute [local instance] Lib.atLeastTwo_two

/-- The arithmetic of the real numbers, with one embedding. -/
noncomputable def realNumerics : Numerics ℝ Unit where
  ofRat q := q
  neg x := -x
  add x y := x + y
  sub x y := x - y
  div x y := x / y
  lt x y := decide (x < y)
  eq x y := decide (x = y)
  eqInt z x := decide ((z : ℝ) = x)
  isfinite _ := true
  log2 := Real.logb 2
  sum := List.sum
  fmean values := values.sum / values.length
  round6 x := round (x * 10 ^ 6) / 10 ^ 6
  cosineSimilarity _ _ := 1
  meanPool _ := ()
  logistic _ test := test.map fun _ => 1 / 2
  choice _ _ _ := ⟨0, Nat.succ_pos _⟩

theorem realNumerics_exact : realNumerics.Exact := by
  constructor <;> intros <;> simp [realNumerics]

theorem discount_realNumerics (index : ℕ) :
    discount realNumerics index = 1 / Real.logb 2 (index + 2) := by
  simp [discount, realNumerics]

theorem discount_pos (index : ℕ) : 0 < discount realNumerics index := by
  rw [discount_realNumerics]
  have hlog : 0 < Real.logb 2 ((index : ℝ) + 2) :=
    Real.logb_pos (by norm_num) (by linarith [(Nat.cast_nonneg index : (0 : ℝ) ≤ index)])
  positivity

/-- Every discount is smaller than the one before. -/
theorem discount_strictAnti : StrictAnti (discount realNumerics) := by
  intro i j hij
  have hi : (1 : ℝ) < (i : ℝ) + 2 := by linarith [(Nat.cast_nonneg i : (0 : ℝ) ≤ i)]
  have hij' : (i : ℝ) + 2 < (j : ℝ) + 2 := by simpa using hij
  rw [discount_realNumerics, discount_realNumerics]
  exact one_div_lt_one_div_of_lt (Real.logb_pos (by norm_num) hi)
    (Real.logb_lt_logb (by norm_num) (by linarith) hij')

/-- Two of three ranked items are relevant, the second and the third. -/
theorem ndcg_laws_logarithmic :
    ∃ value : ℝ, ndcgAtK realNumerics ["a", "b", "c"] ["b", "c"] 2 = .ok value
      ∧ value ∈ Set.Icc 0 1 ∧ value ≠ 1
      ∧ ndcg realNumerics ["a", "b", "c"] ["b", "c"].toFinset 2 = some value
      ∧ ndcgBinary realNumerics [0, 1, 1] 2 = value
      ∧ ∃ swapped : ℝ, ndcgAtK realNumerics ["b", "a", "c"] ["b", "c"] 2 = .ok swapped
        ∧ value ≤ swapped := by
  obtain ⟨value, hvalue, hunit, hone, hswap, hagree⟩ :=
    ndcg_laws realNumerics_exact discount_pos discount_strictAnti
      (show ["a", "b", "c"].Nodup by decide) (show ["b", "c"] ≠ [] by decide)
      (show 1 ≤ 2 by decide)
  obtain ⟨hndcg, hbinary⟩ := hagree (by decide)
  refine ⟨value, hvalue, hunit, ?_, hndcg, hbinary,
    hswap [] [] ["c"] "a" "b" rfl (by decide) (by decide)⟩
  intro h
  obtain ⟨item, hitem, hfirst⟩ := hone.mp h 0 (by decide)
  obtain rfl : "a" = item := by simpa using hfirst
  exact absurd hitem (by decide)

end Oecophylla.Evaluation
