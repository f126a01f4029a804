import Mathlib.Algebra.BigOperators.Field
import Mathlib.Algebra.BigOperators.Group.Finset.Basic

namespace Oecophylla.Lib

open scoped BigOperators

/-!
# Library — softmax

The weights `exp (f i) / Σ exp (f j)` over a finite set, for a function `exp` that turns sums into
products and is never zero.

* `softmax_sub` — subtracting a constant changes nothing;
* `sum_range_ite` — a sum over a longer range of which only the beginning counts.
-/

variable {ι F : Type*} [Field F]

/-- The weight of `i` among `s`. -/
def softmax (exp : F → F) (s : Finset ι) (f : ι → F) (i : ι) : F := exp (f i) / ∑ j ∈ s, exp (f j)

/-- A softmax only looks at the differences. -/
theorem softmax_sub {exp : F → F} (hadd : ∀ x y, exp (x + y) = exp x * exp y)
    (hne : ∀ x, exp x ≠ 0) (s : Finset ι) (f : ι → F) (c : F) (i : ι) :
    softmax exp s (fun j => f j - c) i = softmax exp s f i := by
  unfold softmax
  have hsplit : ∀ j, exp (f j - c) = exp (f j) * exp (-c) := fun j => by
    rw [sub_eq_add_neg, hadd]
  simp only [hsplit]
  rw [← Finset.sum_mul, mul_div_mul_right _ _ (hne (-c))]

/-- Padding adds nothing. -/
theorem sum_range_ite {M : Type*} [AddCommMonoid M] {n length : Nat} (h : n ≤ length) (f : Nat → M) :
    (∑ l ∈ Finset.range length, if l < n then f l else 0) = ∑ l ∈ Finset.range n, f l := by
  rw [← Finset.sum_filter]
  congr 1
  ext l
  simp only [Finset.mem_filter, Finset.mem_range]
  omega

end Oecophylla.Lib
