import Mathlib.Algebra.BigOperators.Group.List.Basic
import Mathlib.Algebra.Order.BigOperators.Group.List
import Mathlib.Algebra.Order.Field.Basic
import Mathlib.Order.Interval.Set.Defs

namespace Oecophylla.Lib

/-!
# Discounted gain of a ranking

A ranking is the list of its hits.  A hit at position `i` gains `d i`, and the discount `d` falls
with the position, so that no ranking of `n` hits gains more than the one with its hits on top.

* `gain` — the sum of the discounts at the positions of the hits;
* `ideal` — the gain of `n` hits on top;
* `gain_le_ideal`, `gain_eq_ideal_iff` — the bound, and the rankings that reach it;
* `gain_swap_le` — moving a hit above a miss loses nothing;
* `normalized` — the gain of the first `k` positions over the ideal one, with its three laws.
-/

section Gain

variable {K : Type*} [AddCommMonoid K]

/-- The gain of the hits of a ranking. -/
def gain (d : ℕ → K) : List Bool → K
  | [] => 0
  | hit :: hits => (if hit then d 0 else 0) + gain (fun i => d (i + 1)) hits

/-- The gain of `n` hits on top of the ranking. -/
def ideal (d : ℕ → K) (n : ℕ) : K := ((List.range n).map d).sum

@[simp] theorem gain_nil (d : ℕ → K) : gain d [] = 0 := rfl

@[simp] theorem gain_cons (d : ℕ → K) (hit : Bool) (hits : List Bool) :
    gain d (hit :: hits) = (if hit then d 0 else 0) + gain (fun i => d (i + 1)) hits := rfl

@[simp] theorem ideal_zero (d : ℕ → K) : ideal d 0 = 0 := rfl

theorem ideal_succ (d : ℕ → K) (n : ℕ) :
    ideal d (n + 1) = d 0 + ideal (fun i => d (i + 1)) n := by
  simp [ideal, List.range_succ_eq_map, List.map_map, Function.comp_def]

/-- One more hit on top gains the next discount. -/
theorem ideal_succ_last (d : ℕ → K) (n : ℕ) : ideal d (n + 1) = ideal d n + d n := by
  simp [ideal, List.range_succ]

/-- A ranking that goes on gains at the later discounts. -/
theorem gain_append (d : ℕ → K) (hits hits' : List Bool) :
    gain d (hits ++ hits') = gain d hits + gain (fun i => d (i + hits.length)) hits' := by
  induction hits generalizing d with
  | nil => simp
  | cons hit hits ih =>
    simp only [List.cons_append, gain_cons, ih, List.length_cons, add_assoc]

/-- Counting the first `k` positions is the discount that stops at `k`. -/
theorem gain_take (d : ℕ → K) (k : ℕ) (hits : List Bool) :
    gain d (hits.take k) = gain (fun i => if i < k then d i else 0) hits := by
  induction hits generalizing d k with
  | nil => simp
  | cons hit hits ih =>
    cases k with
    | zero =>
      have hzero : ∀ l : List Bool, gain (fun _ => (0 : K)) l = 0 := by
        intro l
        induction l with
        | nil => rfl
        | cons _ _ ihl => simp [ihl]
      simp [hzero]
    | succ k => simp [ih]

/-- Without hits nothing is gained. -/
theorem gain_eq_zero (d : ℕ → K) {hits : List Bool} (h : hits.count true = 0) :
    gain d hits = 0 := by
  induction hits generalizing d with
  | nil => rfl
  | cons hit hits ih =>
    cases hit with
    | true => simp at h
    | false =>
      rw [List.count_cons_of_ne (by simp)] at h
      simp [ih _ h]

/-- A sum over the enumerated positions of the elements with `p` is the gain of `p`. -/
theorem sum_filterMap_zipIdx {α : Type*} (d : ℕ → K) (p : α → Bool) (l : List α) (m : ℕ) :
    ((l.zipIdx m).filterMap fun x => if p x.1 then some (d x.2) else none).sum
      = gain (fun i => d (i + m)) (l.map p) := by
  induction l generalizing m with
  | nil => rfl
  | cons a l ih =>
    have hshift : (fun i => d (i + (m + 1))) = fun i => d (i + 1 + m) := by
      ext i
      congr 1
      omega
    by_cases ha : p a <;> simp [ha, ih, hshift]

end Gain

section Order

variable {K : Type*} [AddCommMonoid K] [PartialOrder K] [IsOrderedCancelAddMonoid K]
  {d e : ℕ → K}

theorem ideal_le_ideal (h : ∀ i, d i ≤ e i) (n : ℕ) : ideal d n ≤ ideal e n := by
  induction n with
  | zero => simp
  | succ n ih =>
    rw [ideal_succ_last, ideal_succ_last]
    exact add_le_add ih (h n)

theorem ideal_lt_ideal (h : ∀ i, d i < e i) {n : ℕ} (hn : 0 < n) : ideal d n < ideal e n := by
  obtain ⟨n, rfl⟩ := Nat.exists_eq_succ_of_ne_zero hn.ne'
  rw [Nat.succ_eq_add_one, ideal_succ_last, ideal_succ_last]
  exact add_lt_add_of_le_of_lt (ideal_le_ideal (fun i => (h i).le) n) (h n)

/-- Every further hit on top gains something. -/
theorem ideal_strictMono (h : ∀ i, 0 < d i) : StrictMono (ideal d) := by
  refine strictMono_nat_of_lt_succ fun n => ?_
  rw [ideal_succ_last]
  exact lt_add_of_pos_right _ (h n)

theorem ideal_pos (h : ∀ i, 0 < d i) {n : ℕ} (hn : 0 < n) : 0 < ideal d n := by
  have hlt := ideal_strictMono h hn
  rwa [ideal_zero] at hlt

theorem gain_nonneg (h : ∀ i, 0 ≤ d i) (hits : List Bool) : 0 ≤ gain d hits := by
  induction hits generalizing d with
  | nil => simp
  | cons hit hits ih =>
    rw [gain_cons]
    refine add_nonneg ?_ (ih fun i => h (i + 1))
    split
    · exact h 0
    · exact le_rfl

/-- **The bound**: no ranking gains more than the one with its hits on top. -/
theorem gain_le_ideal (hd : Antitone d) (hits : List Bool) :
    gain d hits ≤ ideal d (hits.count true) := by
  induction hits generalizing d with
  | nil => simp
  | cons hit hits ih =>
    have hshift : Antitone fun i => d (i + 1) := fun _ _ hij => hd (Nat.succ_le_succ hij)
    cases hit with
    | true =>
      rw [gain_cons, List.count_cons_self, ideal_succ]
      exact add_le_add (by simp) (ih hshift)
    | false =>
      -- after a miss every hit is one position lower than it could be
      have hlower := ideal_le_ideal (fun i => hd (Nat.le_succ i)) (hits.count true)
      simpa using (ih hshift).trans hlower

/-- **The bound is reached** exactly by the rankings with their hits on top. -/
theorem gain_eq_ideal_iff (hd : StrictAnti d) (hits : List Bool) :
    gain d hits = ideal d (hits.count true)
      ↔ ∀ i < hits.count true, hits[i]? = some true := by
  induction hits generalizing d with
  | nil => simp
  | cons hit hits ih =>
    have hshift : StrictAnti fun i => d (i + 1) := fun _ _ hij => hd (Nat.succ_lt_succ hij)
    cases hit with
    | true =>
      rw [gain_cons, List.count_cons_self, ideal_succ, if_pos rfl, add_right_inj, ih hshift]
      constructor
      · intro h i hi
        cases i with
        | zero => rfl
        | succ i => exact h i (by omega)
      · intro h i hi
        exact h (i + 1) (by omega)
    | false =>
      have hcount : (false :: hits).count true = hits.count true := by simp
      rw [hcount]
      rcases Nat.eq_zero_or_pos (hits.count true) with hzero | hpos
      · -- no hit at all: both gains are zero
        rw [hzero, gain_eq_zero d (hcount.trans hzero)]
        simp
      · have hlt : gain d (false :: hits) < ideal d (hits.count true) := by
          have hlower := ideal_lt_ideal (fun i => hd (Nat.lt_succ_self i)) hpos
          simpa using (gain_le_ideal hshift.antitone hits).trans_lt hlower
        constructor
        · intro h
          exact absurd h hlt.ne
        · intro h
          simpa using h 0 hpos

/-- Moving a hit up to the place of a miss loses nothing. -/
theorem gain_swap_le (hd : Antitone d) (above between below : List Bool) :
    gain d (above ++ false :: (between ++ true :: below))
      ≤ gain d (above ++ true :: (between ++ false :: below)) := by
  simp only [gain_append, gain_cons, Bool.false_eq_true, if_false, if_true, zero_add]
  -- the same positions gain on both sides, but for the two that are swapped
  refine add_le_add le_rfl ?_
  rw [add_left_comm]
  exact add_le_add (hd (by omega)) le_rfl

end Order

/-! ### The normalized gain -/

section Field

variable {K : Type*} [Field K] [LinearOrder K] [IsStrictOrderedRing K] {d : ℕ → K}
  {hits : List Bool} {k total : ℕ}

/-- The gain of the first `k` positions over that of the best ranking of `total` hits. -/
def normalized (d : ℕ → K) (hits : List Bool) (k total : ℕ) : K :=
  gain d (hits.take k) / ideal d (min k total)

theorem count_take_le (htotal : hits.count true ≤ total) :
    (hits.take k).count true ≤ min k total := by
  have htake : (hits.take k).count true ≤ k := List.count_le_length.trans (by simp)
  have hsub : (hits.take k).count true ≤ hits.count true :=
    List.Sublist.count_le true (List.take_sublist k hits)
  omega

/-- **The first law**: a normalized gain is between 0 and 1. -/
theorem normalized_mem_Icc (hpos : ∀ i, 0 < d i) (hd : StrictAnti d) (hk : 0 < k)
    (hne : 0 < total) (htotal : hits.count true ≤ total) :
    normalized d hits k total ∈ Set.Icc 0 1 := by
  have hideal : 0 < ideal d (min k total) := ideal_pos hpos (by omega)
  constructor
  · exact div_nonneg (gain_nonneg (fun i => (hpos i).le) _) hideal.le
  · rw [normalized, div_le_one hideal]
    exact (gain_le_ideal hd.antitone _).trans
      ((ideal_strictMono hpos).monotone (count_take_le htotal))

/-- **The second law**: it is 1 exactly when the first positions are hits, as far as there are hits.
    -/
theorem normalized_eq_one_iff (hpos : ∀ i, 0 < d i) (hd : StrictAnti d) (hk : 0 < k)
    (hne : 0 < total) (htotal : hits.count true ≤ total) :
    normalized d hits k total = 1 ↔ ∀ i < min k total, hits[i]? = some true := by
  have hideal : 0 < ideal d (min k total) := ideal_pos hpos (by omega)
  have hcount : (hits.take k).count true ≤ min k total := count_take_le htotal
  have hfirst : ∀ i < min k total, (hits.take k)[i]? = hits[i]? := by
    intro i hi
    exact List.getElem?_take_of_lt (by omega)
  rw [normalized, div_eq_one_iff_eq hideal.ne']
  constructor
  · intro h
    -- fewer hits than the ideal ranking has would gain less
    have hall : (hits.take k).count true = min k total := by
      by_contra hne'
      have hlt := ideal_strictMono hpos (lt_of_le_of_ne hcount hne')
      exact absurd h ((gain_le_ideal hd.antitone _).trans_lt hlt).ne
    have htop := (gain_eq_ideal_iff hd (hits.take k)).mp (hall ▸ h)
    intro i hi
    rw [← hfirst i hi]
    exact htop i (hall ▸ hi)
  · intro h
    have hall : (hits.take k).count true = min k total := by
      apply le_antisymm hcount
      have hones : (hits.take k).take (min k total) = List.replicate (min k total) true := by
        apply List.ext_getElem?
        intro i
        by_cases hi : i < min k total
        · rw [List.getElem?_take_of_lt hi, hfirst i hi, h i hi, List.getElem?_replicate_of_lt hi]
        · rw [List.getElem?_take_eq_none (by omega), List.getElem?_eq_none (by simp; omega)]
      have hsub := List.Sublist.count_le true (List.take_sublist (min k total) (hits.take k))
      rwa [hones, List.count_replicate_self] at hsub
    rw [← hall]
    apply (gain_eq_ideal_iff hd (hits.take k)).mpr
    intro i hi
    rw [hall] at hi
    rw [hfirst i hi, h i hi]

/-- **The third law**: moving a hit above a miss loses nothing. -/
theorem normalized_swap_le (hpos : ∀ i, 0 < d i) (hd : StrictAnti d) (hk : 0 < k)
    (hne : 0 < total) (above between below : List Bool) :
    normalized d (above ++ false :: (between ++ true :: below)) k total
      ≤ normalized d (above ++ true :: (between ++ false :: below)) k total := by
  have hideal : 0 < ideal d (min k total) := ideal_pos hpos (by omega)
  -- the cut at `k` is a discount of its own, that still falls
  have hcut : Antitone fun i => if i < k then d i else 0 := by
    intro i j hij
    by_cases hj : j < k
    · simpa [hj, show i < k by omega] using hd.antitone hij
    · by_cases hi : i < k
      · simpa [hj, hi] using (hpos i).le
      · simp [hj, hi]
  rw [normalized, normalized, gain_take, gain_take]
  exact div_le_div_of_nonneg_right (gain_swap_le hcut above between below) hideal.le

end Field

end Oecophylla.Lib
