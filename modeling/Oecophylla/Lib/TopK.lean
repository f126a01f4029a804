import Mathlib.Data.List.Induction
import Oecophylla.Lib.StableSort

namespace Oecophylla.Lib

/-!
# The greatest items in bounded memory

A stream is read once, and of its items at most `k` are kept: while there is room a new item is
added, then it takes the place of the least item kept if it is greater.  What is kept is sorted, and
the order has no ties but equal items.

* `keepStep`, `keep` — the stream;
* `keep_eq_drop` — what is kept are the last `k` items of the sorted stream;
* `reverse_keep` — from the greatest down, the first `k` items of the falling sort.
-/

variable {α : Type*} (cmp : α → α → Ordering)

/-- An item at its place in a sorted list. -/
def insertSorted (a : α) (l : List α) : List α :=
  l.orderedInsert (fun a b => (cmp a b).isLE = true) a

/-- A new item is added, or takes the place of the least. -/
def keepStep (k : ℕ) (kept : List α) (a : α) : List α :=
  if kept.length < k then insertSorted cmp a kept
  else if ∃ least ∈ kept.head?, cmp a least = .gt then insertSorted cmp a kept.tail
  else kept

/-- What is kept of a stream. -/
def keep (k : ℕ) (l : List α) : List α := l.foldl (keepStep cmp k) []

variable {cmp}

/-! ### Insertion -/

theorem insertSorted_append_of_gt {a : α} {l : List α} (h : ∀ b ∈ l, cmp a b = .gt) (l' : List α) :
    insertSorted cmp a (l ++ l') = l ++ insertSorted cmp a l' := by
  induction l with
  | nil => rfl
  | cons b l ih =>
    have hb : ¬ (cmp a b).isLE = true := by simp [h b List.mem_cons_self]
    unfold insertSorted at ih ⊢
    rw [List.cons_append, List.orderedInsert_cons, if_neg hb,
      ih fun c hc => h c (List.mem_cons_of_mem b hc), List.cons_append]

theorem insertSorted_append_of_le {a : α} {l' : List α}
    (h : ∀ b ∈ l'.head?, (cmp a b).isLE = true) (l : List α) :
    insertSorted cmp a (l ++ l') = insertSorted cmp a l ++ l' := by
  unfold insertSorted
  induction l with
  | nil =>
    cases l' with
    | nil => rfl
    | cons b l' => rw [List.nil_append, List.orderedInsert_cons, if_pos (h b (by simp))]; rfl
  | cons c l ih =>
    rw [List.cons_append, List.orderedInsert_cons, List.orderedInsert_cons, ih]
    split <;> rfl

theorem length_insertSorted (a : α) (l : List α) : (insertSorted cmp a l).length = l.length + 1 :=
  List.orderedInsert_length _ l a

section Sorted

variable [Std.TransCmp cmp] [Std.LawfulEqCmp cmp]

/-- Sorted lists of the same items are equal, ties or not. -/
theorem eq_of_perm_of_sorted {l l' : List α} (hperm : l.Perm l')
    (hsorted : l.Pairwise fun a b => (cmp a b).isLE = true)
    (hsorted' : l'.Pairwise fun a b => (cmp a b).isLE = true) : l = l' := by
  refine List.Perm.eq_of_pairwise ?_ hsorted hsorted' hperm
  intro a b _ _ hab hba
  have hswap : cmp b a = (cmp a b).swap := Std.OrientedCmp.eq_swap
  have heq : cmp a b = .eq := by
    rw [hswap] at hba
    cases h : cmp a b <;> simp_all
  exact Std.LawfulEqCmp.eq_of_compare heq

/-- Sorting does not depend on the order of the list. -/
theorem stableSort_eq_of_perm_of_lawful {l l' : List α} (hperm : l.Perm l') :
    stableSort cmp l = stableSort cmp l' := by
  apply eq_of_perm_of_sorted _ (pairwise_stableSort cmp l) (pairwise_stableSort cmp l')
  exact (stableSort_perm cmp l).trans (hperm.trans (stableSort_perm cmp l').symm)

theorem stableSort_append_singleton (l : List α) (a : α) :
    stableSort cmp (l ++ [a]) = insertSorted cmp a (stableSort cmp l) := by
  have hcons : stableSort cmp (a :: l) = insertSorted cmp a (stableSort cmp l) := rfl
  rw [← hcons]
  exact stableSort_eq_of_perm_of_lawful (List.perm_append_singleton a l)

/-- **What is kept** are the last items of the sorted stream. -/
theorem keep_eq_drop {k : ℕ} (hk : 0 < k) (l : List α) :
    keep cmp k l = (stableSort cmp l).drop (l.length - k) := by
  induction l using List.reverseRecOn with
  | nil => simp [keep]
  | append_singleton l a ih =>
    have hstep : keep cmp k (l ++ [a]) = keepStep cmp k (keep cmp k l) a := by simp [keep]
    rw [hstep, ih, stableSort_append_singleton, List.length_append, List.length_singleton]
    have hlength : (stableSort cmp l).length = l.length := length_stableSort
    have hsorted := pairwise_stableSort cmp l
    by_cases hroom : l.length < k
    · -- there is room: nothing has been dropped
      rw [show l.length - k = 0 by omega, show l.length + 1 - k = 0 by omega, List.drop_zero,
        List.drop_zero, keepStep, if_pos (by omega)]
    · rw [keepStep, if_neg (by rw [List.length_drop]; omega)]
      -- the sorted stream: what was dropped, and what is kept
      set dropped := (stableSort cmp l).take (l.length - k) with hdropped
      set kept := (stableSort cmp l).drop (l.length - k) with hkept
      have hsplit : stableSort cmp l = dropped ++ kept := (List.take_append_drop _ _).symm
      have hlen : dropped.length = l.length - k := by rw [hdropped, List.length_take]; omega
      obtain ⟨least, rest, hcons⟩ : ∃ least rest, kept = least :: rest := by
        apply List.exists_cons_of_length_pos
        rw [hkept, List.length_drop]
        omega
      rw [hsplit, hcons] at hsorted
      rw [hsplit, hcons, List.head?_cons, List.tail_cons]
      by_cases hgt : cmp a least = .gt
      · rw [if_pos ⟨least, rfl, hgt⟩]
        have hall : ∀ b ∈ dropped ++ [least], cmp a b = .gt := by
          intro b hb
          rcases List.mem_append.mp hb with hb | hb
          · have hle := (List.pairwise_append.mp hsorted).2.2 b hb least List.mem_cons_self
            exact Std.TransCmp.gt_of_gt_of_isGE hgt (Std.OrientedCmp.isGE_of_isLE hle)
          · rw [List.mem_singleton.mp hb, hgt]
        have hlen' : (dropped ++ [least]).length = l.length + 1 - k := by
          rw [List.length_append, List.length_singleton]
          omega
        rw [List.append_cons, insertSorted_append_of_gt hall, List.drop_left' hlen']
      · have hnone : ¬ ∃ least' ∈ some least, cmp a least' = .gt := by simpa using hgt
        have hle : (cmp a least).isLE = true := by
          cases h : cmp a least with
          | lt => rfl
          | eq => rfl
          | gt => exact absurd h hgt
        have hlen' : (insertSorted cmp a dropped).length = l.length + 1 - k := by
          rw [length_insertSorted]
          omega
        rw [if_neg hnone, insertSorted_append_of_le (by simpa using hle), List.drop_left' hlen']

/-- From the greatest down, what is kept are the first items of the falling sort. -/
theorem reverse_keep {k : ℕ} (hk : 0 < k) (l : List α) :
    (keep cmp k l).reverse = (stableSort (fun a b => cmp b a) l).take k := by
  have hreverse : (stableSort cmp l).reverse = stableSort (fun a b => cmp b a) l := by
    refine @eq_of_perm_of_sorted _ (fun a b => cmp b a) _ _ _ _ ?_ ?_
      (pairwise_stableSort (fun a b => cmp b a) l)
    · exact (List.reverse_perm _).trans ((stableSort_perm cmp l).trans (stableSort_perm _ l).symm)
    · rw [List.pairwise_reverse]
      exact pairwise_stableSort cmp l
  rw [keep_eq_drop hk, ← hreverse, List.reverse_drop, length_stableSort]
  by_cases h : k ≤ l.length
  · congr 1
    omega
  · rw [List.take_of_length_le (by simp; omega), List.take_of_length_le (by simp; omega)]

end Sorted

end Oecophylla.Lib
