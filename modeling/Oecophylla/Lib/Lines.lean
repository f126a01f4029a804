import Mathlib.Algebra.GroupWithZero.Nat
import Mathlib.Data.List.Basic
import Mathlib.Data.List.Flatten
import Mathlib.Algebra.BigOperators.Group.List.Basic

namespace Oecophylla.Lib

/-!
# Lines and fields of a file

* `linesOf` — the lines of a file with their ends, as a file handle gives them;
* `linesOf_flatMap` — of a file that is made of lines;
* `splitOnP_flatMap` — cutting such a file at more characters than the ends of its lines;
* `length_splitOn`, `sum_count_splitOnP` — the number of fields, and what is left of it when a line
  is cut.
-/

variable {α : Type*}

/-- The lines of a file, each with its end; the last may have none. -/
def linesOf (isEnd : α → Bool) : List α → List (List α)
  | [] => []
  | c :: cs =>
    if isEnd c then [c] :: linesOf isEnd cs
    else
      match linesOf isEnd cs with
      | [] => [[c]]
      | l :: ls => (c :: l) :: ls

theorem linesOf_append {isEnd : α → Bool} {e : α} (he : isEnd e = true) {l : List α}
    (hl : ∀ c ∈ l, isEnd c = false) (rest : List α) :
    linesOf isEnd (l ++ e :: rest) = (l ++ [e]) :: linesOf isEnd rest := by
  induction l with
  | nil => simp [linesOf, he]
  | cons c l ih =>
    have hc : isEnd c = false := hl c List.mem_cons_self
    rw [List.cons_append, linesOf, ih fun d hd => hl d (List.mem_cons_of_mem c hd)]
    simp [hc]

/-- The lines of a file that is made of lines. -/
theorem linesOf_flatMap {isEnd : α → Bool} {e : α} (he : isEnd e = true) {ls : List (List α)}
    (hls : ∀ l ∈ ls, ∀ c ∈ l, isEnd c = false) :
    linesOf isEnd (ls.flatMap fun l => l ++ [e]) = ls.map fun l => l ++ [e] := by
  induction ls with
  | nil => rfl
  | cons l ls ih =>
    rw [List.flatMap_cons, List.append_assoc, List.singleton_append,
      linesOf_append he (hls l List.mem_cons_self), ih fun m hm => hls m (List.mem_cons_of_mem l hm),
      List.map_cons]

/-- A file that is made of lines, cut at the ends of the lines and elsewhere. -/
theorem splitOnP_flatMap {p : α → Bool} {e : α} (he : p e = true) (ls : List (List α)) :
    (ls.flatMap fun l => l ++ [e]).splitOnP p = (ls.flatMap fun l => l.splitOnP p) ++ [[]] := by
  induction ls with
  | nil => rfl
  | cons l ls ih =>
    rw [List.flatMap_cons, List.append_assoc, List.singleton_append,
      List.splitOnP_append_cons l _ he, ih, List.flatMap_cons, List.append_assoc]

variable [DecidableEq α]

theorem length_splitOn (a : α) (l : List α) : (l.splitOn a).length = l.count a + 1 := by
  induction l with
  | nil => simp
  | cons c l ih =>
    rw [List.splitOn_cons_eq_if_modifyHead]
    by_cases hc : c = a
    · subst hc
      simp [ih]
    · have hbeq : (c == a) = false := by simpa using hc
      simp [hbeq, ih, List.count_cons]

/-- Cutting elsewhere does not lose a character. -/
theorem sum_count_splitOnP {p : α → Bool} {a : α} (ha : p a = false) (l : List α) :
    ((l.splitOnP p).map (List.count a)).sum = l.count a := by
  induction l with
  | nil => simp
  | cons c l ih =>
    rw [List.splitOnP_cons_eq_if_modifyHead]
    by_cases hc : p c = true
    · have hne : c ≠ a := by
        rintro rfl
        rw [ha] at hc
        cases hc
      simp [hc, ih, hne]
    · obtain ⟨d, ds, hd⟩ := List.exists_cons_of_ne_nil (List.splitOnP_ne_nil p l)
      rw [hd] at ih
      rw [if_neg hc, hd, List.modifyHead_cons, List.map_cons, List.sum_cons, List.count_cons,
        List.count_cons, ← ih, List.map_cons, List.sum_cons]
      omega

/-- A line that is cut has pieces with fewer fields. -/
theorem exists_fewer_fields {p : α → Bool} {a : α} (ha : p a = false) {l : List α}
    (hcut : ∃ c ∈ l, p c = true) {width : ℕ} (hwidth : 2 ≤ width)
    (hfields : (l.splitOn a).length = width) :
    ∃ piece ∈ l.splitOnP p, (piece.splitOn a).length ≠ width := by
  by_contra hall
  push Not at hall
  -- at least two pieces, each with all the separators of the line
  have hpieces : 2 ≤ (l.splitOnP p).length := by
    obtain ⟨c, hc, hpc⟩ := hcut
    obtain ⟨l₁, l₂, rfl⟩ := List.append_of_mem hc
    rw [List.splitOnP_append_cons l₁ l₂ hpc, List.length_append]
    have h₁ := List.length_pos_of_ne_nil (List.splitOnP_ne_nil p l₁)
    have h₂ := List.length_pos_of_ne_nil (List.splitOnP_ne_nil p l₂)
    omega
  have hsum := sum_count_splitOnP ha l
  have hcount : ∀ piece ∈ l.splitOnP p, piece.count a = width - 1 := by
    intro piece hpiece
    have h := hall piece hpiece
    rw [length_splitOn] at h
    omega
  rw [List.map_congr_left hcount, List.map_const', List.sum_replicate_nat] at hsum
  rw [length_splitOn] at hfields
  have htwice : 2 * (width - 1) ≤ (l.splitOnP p).length * (width - 1) :=
    Nat.mul_le_mul_right _ hpieces
  omega

end Oecophylla.Lib
