import Mathlib.Algebra.BigOperators.Group.List.Basic
import Mathlib.Algebra.Order.Group.Abs
import Mathlib.Tactic.Abel

namespace Oecophylla.Lib

/-!
# Folds that add up

A fold over a state, seen through one number of it: each step adds an amount, up to an error.

* `foldl_eq_add_sum` — without errors, where an invariant holds, the fold adds the sum of the
  amounts;
* `abs_foldl_sub_le` — the whole fold adds the sum of the amounts, up to the sum of the errors.
-/

section Exact

variable {σ α M : Type*} [AddMonoid M]

/-- If every step keeps an invariant, and where it holds adds its amount, so does the fold. -/
theorem foldl_eq_add_sum (inv : σ → Prop) (value : σ → M) {step : σ → α → σ} (amount : α → M)
    {as : List α} (hinv : ∀ s, inv s → ∀ a ∈ as, inv (step s a))
    (hstep : ∀ s, inv s → ∀ a ∈ as, value (step s a) = value s + amount a) {s : σ} (hs : inv s) :
    inv (as.foldl step s) ∧ value (as.foldl step s) = value s + (as.map amount).sum := by
  induction as generalizing s with
  | nil => simpa using hs
  | cons a as ih =>
    obtain ⟨hkeeps, hvalue⟩ := ih (fun s hs b hb => hinv s hs b (List.mem_cons_of_mem a hb))
      (fun s hs b hb => hstep s hs b (List.mem_cons_of_mem a hb))
      (hinv s hs a List.mem_cons_self)
    refine ⟨hkeeps, ?_⟩
    rw [List.foldl_cons, hvalue, hstep s hs a List.mem_cons_self, List.map_cons, List.sum_cons,
      add_assoc]

end Exact

variable {σ α G : Type*} [AddCommGroup G] [LinearOrder G] [IsOrderedAddMonoid G]

/-- If every step adds its amount up to its error, so does the fold. -/
theorem abs_foldl_sub_le (value : σ → G) {step : σ → α → σ} (amount error : α → G) {as : List α}
    (hstep : ∀ s, ∀ a ∈ as, |value (step s a) - (value s + amount a)| ≤ error a) (s : σ) :
    |value (as.foldl step s) - (value s + (as.map amount).sum)| ≤ (as.map error).sum := by
  induction as generalizing s with
  | nil => simp
  | cons a as ih =>
    have hrest := ih (fun s b hb => hstep s b (List.mem_cons_of_mem a hb)) (step s a)
    have hfirst := hstep s a List.mem_cons_self
    rw [List.foldl_cons, List.map_cons, List.sum_cons, List.map_cons, List.sum_cons]
    have hsplit : value (as.foldl step (step s a)) - (value s + (amount a + (as.map amount).sum))
        = (value (step s a) - (value s + amount a))
          + (value (as.foldl step (step s a)) - (value (step s a) + (as.map amount).sum)) := by
      abel
    rw [hsplit]
    exact (abs_add_le _ _).trans (add_le_add hfirst hrest)

end Oecophylla.Lib
