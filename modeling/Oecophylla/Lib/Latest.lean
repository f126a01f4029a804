import Mathlib.Algebra.BigOperators.Group.List.Basic
import Mathlib.Data.List.MinMax
import Mathlib.Data.List.Perm.Lattice
import Mathlib.Order.Defs.LinearOrder
import Oecophylla.Lib.OrderedDict

namespace Oecophylla.Lib

/-!
# The latest item of every key, and totals

A loop keeps for every key the latest of its items, and of items at one time the first.  A second
loop adds up amounts under keys.

* `latestBy`, `get_latestBy` — the loop that keeps the latest items, each a `List.argmax`;
* `get_combine_add` — the total of a key;
* `map_perm_of_get_map_eq`, `keys_perm_of_get_eq` — dictionaries with one lookup have the same
  entries, in some order.
-/

/-! ### The latest item -/

section Latest

variable {α κ τ : Type*} [LinearOrder τ] (time : α → τ)

/-- In another order the latest item has the same time. -/
theorem argmax_time_of_perm {l l' : List α} (hperm : l.Perm l') :
    (l.argmax time).map time = (l'.argmax time).map time := by
  cases h : l.argmax time with
  | none =>
    rw [List.argmax_eq_none] at h
    subst h
    rw [List.nil_perm.mp hperm]
    rfl
  | some a =>
    cases h' : l'.argmax time with
    | none =>
      rw [List.argmax_eq_none] at h'
      subst h'
      rw [List.perm_nil.mp hperm] at h
      cases h
    | some a' =>
      have hle := List.le_of_mem_argmax (hperm.mem_iff.mpr (List.argmax_mem h')) h
      have hle' := List.le_of_mem_argmax (hperm.mem_iff.mp (List.argmax_mem h)) h'
      rw [Option.map_some, Option.map_some, le_antisymm hle' hle]

variable [DecidableEq κ] (key : α → κ)

/-- One round of the loop. -/
def latestStep (latest : OrderedDict κ α) (a : α) : OrderedDict κ α :=
  match latest.get (key a) with
  | none => latest.set (key a) a
  | some b => if time b < time a then latest.set (key a) a else latest

/-- For every key the first of its latest items. -/
def latestBy (l : List α) : OrderedDict κ α := l.foldl (latestStep time key) []

theorem get_latestBy (l : List α) (k : κ) :
    (latestBy time key l).get k = (l.filter fun a => key a = k).argmax time := by
  induction l using List.reverseRecOn with
  | nil => rfl
  | append_singleton l a ih =>
    have hstep : latestBy time key (l ++ [a]) = latestStep time key (latestBy time key l) a := by
      simp [latestBy]
    rw [hstep, List.filter_append]
    by_cases hk : key a = k
    · subst hk
      rw [show [a].filter (fun b => key b = key a) = [a] by simp, List.argmax_concat, ← ih,
        latestStep]
      cases hget : (latestBy time key l).get (key a) with
      | none => simp [OrderedDict.get_set]
      | some b =>
        simp only
        split
        · simp [OrderedDict.get_set]
        · exact hget
    · have hsame : (latestStep time key (latestBy time key l) a).get k
          = (latestBy time key l).get k := by
        have hne : k ≠ key a := fun h => hk h.symm
        unfold latestStep
        split
        · rw [OrderedDict.get_set, if_neg hne]
        · split
          · rw [OrderedDict.get_set, if_neg hne]
          · rfl
      rw [show [a].filter (fun b => key b = k) = [] by simp [hk], List.append_nil, hsame, ih]

theorem nodup_latestBy (l : List α) : ((latestBy time key l).map Prod.fst).Nodup := by
  induction l using List.reverseRecOn with
  | nil => exact List.nodup_nil
  | append_singleton l a ih =>
    have hstep : latestBy time key (l ++ [a]) = latestStep time key (latestBy time key l) a := by
      simp [latestBy]
    rw [hstep, latestStep]
    split
    · exact OrderedDict.nodup_set ih _ _
    · split
      · exact OrderedDict.nodup_set ih _ _
      · exact ih

end Latest

namespace OrderedDict

variable {κ ν μ : Type*} [DecidableEq κ]

/-! ### Entries in some order -/

/-- Dictionaries that give every key the same image have the same images of entries. -/
theorem map_perm_of_get_map_eq {d d' : OrderedDict κ ν} {g : ν → μ}
    (hnodup : (d.map Prod.fst).Nodup) (hnodup' : (d'.map Prod.fst).Nodup)
    (h : ∀ k, (d.get k).map g = (d'.get k).map g) :
    (d.map fun e => (e.1, g e.2)).Perm (d'.map fun e => (e.1, g e.2)) := by
  have hfst : ∀ d : OrderedDict κ ν, (d.map fun e => (e.1, g e.2)).map Prod.fst = d.map Prod.fst := by
    intro d
    rw [List.map_map]
    rfl
  have hmem : ∀ d : OrderedDict κ ν, (d.map Prod.fst).Nodup → ∀ k m,
      (k, m) ∈ d.map (fun e => (e.1, g e.2)) ↔ (d.get k).map g = some m := by
    intro d hd k m
    rw [Option.map_eq_some_iff, List.mem_map]
    constructor
    · rintro ⟨⟨k', v⟩, hv, heq⟩
      obtain ⟨rfl, rfl⟩ := Prod.mk.inj heq
      exact ⟨v, get_of_mem hd hv, rfl⟩
    · rintro ⟨v, hv, rfl⟩
      exact ⟨(k, v), mem_of_get hv, rfl⟩
  refine (List.perm_ext_iff_of_nodup (List.Nodup.of_map Prod.fst (by rwa [hfst]))
    (List.Nodup.of_map Prod.fst (by rwa [hfst]))).mpr ?_
  rintro ⟨k, m⟩
  rw [hmem d hnodup, hmem d' hnodup', h]

theorem keys_perm_of_get_eq {d d' : OrderedDict κ ν} (hnodup : (d.map Prod.fst).Nodup)
    (hnodup' : (d'.map Prod.fst).Nodup) (h : ∀ k, d.get k = d'.get k) :
    (d.map Prod.fst).Perm (d'.map Prod.fst) := by
  have hperm := @map_perm_of_get_map_eq κ ν ν _ d d' id hnodup hnodup' (fun k => by rw [h])
  simpa using hperm.map Prod.fst

/-! ### Totals -/

variable {M : Type*} [AddCommMonoid M]

/-- The total of a key. -/
theorem get_combine_add (d : OrderedDict κ M) (entries : List (κ × M)) (k : κ) :
    (combine (· + ·) 0 d entries).get k
      = if k ∈ entries.map Prod.fst then
          some ((d.get k).getD 0 + (entries.map fun e => if e.1 = k then e.2 else 0).sum)
        else d.get k := by
  induction entries generalizing d with
  | nil => rfl
  | cons e entries ih =>
    show (combine (· + ·) 0 (d.set e.1 _) entries).get k = _
    rw [ih, get_set]
    by_cases hk : k = e.1
    · subst hk
      simp only [if_true, Option.getD_some, List.map_cons, List.mem_cons, true_or, List.sum_cons]
      split
      · rw [add_assoc]
      · next hnot =>
        -- the key does not come again: the other amounts are zero
        have hzero : (entries.map fun f => if f.1 = e.1 then f.2 else 0).sum = 0 := by
          apply List.sum_eq_zero
          intro m hm
          obtain ⟨f, hf, rfl⟩ := List.mem_map.mp hm
          rw [if_neg]
          intro heq
          exact hnot (List.mem_map.mpr ⟨f, hf, heq⟩)
        rw [hzero, add_zero]
    · have hne : e.1 ≠ k := fun h => hk h.symm
      simp only [hk, if_false, List.map_cons, List.mem_cons, false_or, List.sum_cons, hne,
        zero_add]

/-- Totals do not depend on the order of the amounts. -/
theorem get_combine_add_of_perm {entries entries' : List (κ × M)} (hperm : entries.Perm entries')
    (d : OrderedDict κ M) (k : κ) :
    (combine (· + ·) 0 d entries).get k = (combine (· + ·) 0 d entries').get k := by
  have hmem : k ∈ entries.map Prod.fst ↔ k ∈ entries'.map Prod.fst :=
    (hperm.map Prod.fst).mem_iff
  rw [get_combine_add, get_combine_add,
    (hperm.map fun e => if e.1 = k then e.2 else 0).sum_eq]
  simp only [hmem]

end OrderedDict

end Oecophylla.Lib
