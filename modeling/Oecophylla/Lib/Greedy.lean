import Mathlib.Data.List.MinMax
import Mathlib.Data.List.Nodup
import Mathlib.Data.List.Perm.Basic

namespace Oecophylla.Lib

/-!
# Library — greedy selection

In each round the first of the entries of the greatest value moves from those that remain to the
end of those selected.  The value of an entry may depend on what has been selected before.

* `exists_greedy_eq` — nothing is lost, and nothing is selected twice;
* `greedy_isPrefix` — further rounds only add at the end;
* `greedy_choice` — an entry is selected when its value, given the entries selected before it, is
  the greatest of those that remain;
* `greedy_map` — what the value does not look at does not matter.
-/

variable {α β : Type*} [DecidableEq α] [LinearOrder β]

/-- Select up to `rounds` further entries; `max(remaining, key)` is the first of the greatest. -/
def greedy (value : List α → α → β) : Nat → List α → List α → List α
  | 0, selected, _ => selected
  | rounds + 1, selected, remaining =>
    match remaining.argmax (value selected) with
    | none => selected
    | some best => greedy value rounds (selected ++ [best]) (remaining.erase best)

variable {value : List α → α → β}

theorem greedy_zero (selected remaining : List α) :
    greedy value 0 selected remaining = selected := rfl

@[simp] theorem greedy_nil (rounds : Nat) (selected : List α) :
    greedy value rounds selected [] = selected := by
  cases rounds <;> rfl

/-- One round, when an entry remains. -/
theorem greedy_succ {selected remaining : List α} {best : α}
    (hbest : remaining.argmax (value selected) = some best) (rounds : Nat) :
    greedy value (rounds + 1) selected remaining
      = greedy value rounds (selected ++ [best]) (remaining.erase best) := by
  rw [greedy, hbest]

omit [DecidableEq α] in
/-- A round finds its entry while one remains. -/
theorem exists_argmax (value : List α → α → β) {remaining : List α} (hne : remaining ≠ [])
    (selected : List α) :
    ∃ best ∈ remaining, remaining.argmax (value selected) = some best := by
  cases hbest : remaining.argmax (value selected) with
  | none => exact absurd (List.argmax_eq_none.mp hbest) hne
  | some best => exact ⟨best, List.argmax_mem hbest, rfl⟩

/-- **Nothing is lost.**  The entries that remained are those chosen and a rest, and as many are
    chosen as there are rounds or entries. -/
theorem exists_greedy_eq (value : List α → α → β) (rounds : Nat) (selected remaining : List α) :
    ∃ chosen rest, greedy value rounds selected remaining = selected ++ chosen
      ∧ remaining.Perm (chosen ++ rest) ∧ chosen.length = min rounds remaining.length := by
  induction rounds generalizing selected remaining with
  | zero => exact ⟨[], remaining, by simp [greedy_zero], .refl _, by simp⟩
  | succ rounds ih =>
    by_cases hne : remaining = []
    · subst hne
      exact ⟨[], [], by simp, .refl _, by simp⟩
    · obtain ⟨best, hmem, hbest⟩ := exists_argmax value hne selected
      obtain ⟨chosen, rest, heq, hperm, hlength⟩ := ih (selected ++ [best]) (remaining.erase best)
      refine ⟨best :: chosen, rest, ?_, ?_, ?_⟩
      · rw [greedy_succ hbest, heq, List.append_assoc, List.singleton_append]
      · exact (List.perm_cons_erase hmem).trans (hperm.cons best)
      · have hpos : 0 < remaining.length := List.length_pos_of_mem hmem
        rw [List.length_cons, hlength, List.length_erase_of_mem hmem]
        omega

/-- What was selected before stays at the front. -/
theorem isPrefix_greedy (rounds : Nat) (selected remaining : List α) :
    selected <+: greedy value rounds selected remaining := by
  obtain ⟨chosen, _, heq, _, _⟩ := exists_greedy_eq value rounds selected remaining
  exact ⟨chosen, heq.symm⟩

/-- **Prefix law.**  Further rounds only add at the end. -/
theorem greedy_isPrefix {rounds rounds' : Nat} (hle : rounds ≤ rounds')
    (selected remaining : List α) :
    greedy value rounds selected remaining <+: greedy value rounds' selected remaining := by
  induction rounds generalizing rounds' selected remaining with
  | zero => exact isPrefix_greedy rounds' selected remaining
  | succ rounds ih =>
    obtain ⟨more, rfl⟩ : ∃ more, rounds' = more + 1 := ⟨rounds' - 1, by omega⟩
    by_cases hne : remaining = []
    · subst hne
      refine ⟨[], ?_⟩
      rw [greedy_nil, greedy_nil, List.append_nil]
    · obtain ⟨best, _, hbest⟩ := exists_argmax value hne selected
      rw [greedy_succ hbest, greedy_succ hbest]
      exact ih (by omega) _ _

/-- **Choice.**  Of the entries that remain, the one selected next has the greatest value. -/
theorem greedy_choice {rounds : Nat} {selected remaining before after : List α} {best : α}
    (heq : greedy value rounds selected remaining = selected ++ (before ++ best :: after))
    {x : α} (hx : x ∈ remaining) (hbefore : x ∉ before) :
    value (selected ++ before) x ≤ value (selected ++ before) best := by
  induction rounds generalizing selected remaining before with
  | zero => simp [greedy_zero] at heq
  | succ rounds ih =>
    obtain ⟨first, _, hfirst⟩ := exists_argmax value (List.ne_nil_of_mem hx) selected
    rw [greedy_succ hfirst] at heq
    -- the entry of this round, then those of the rounds that remain
    obtain ⟨chosen, _, hchosen, _, _⟩ :=
      exists_greedy_eq value rounds (selected ++ [first]) (remaining.erase first)
    have hsplit : first :: chosen = before ++ best :: after := by
      rw [hchosen, List.append_assoc] at heq
      simpa using heq
    cases before with
    | nil =>
      obtain ⟨rfl, _⟩ : first = best ∧ chosen = after := by simpa using hsplit
      rw [List.append_nil]
      exact List.le_of_mem_argmax hx hfirst
    | cons c before =>
      obtain ⟨rfl, _⟩ : first = c ∧ chosen = before ++ best :: after := by simpa using hsplit
      -- an entry that is not selected before stays among the remaining
      have hne : x ≠ first := fun h => hbefore (h ▸ List.mem_cons_self)
      have hrest : x ∉ before := fun h => hbefore (List.mem_cons_of_mem _ h)
      have hle : value (selected ++ [first] ++ before) x
          ≤ value (selected ++ [first] ++ before) best :=
        ih (by simpa using heq) ((List.mem_erase_of_ne hne).mpr hx) hrest
      simpa using hle

section Map

variable {γ : Type*}

omit [DecidableEq α] in
theorem argmax_map (f : α → γ) (g : γ → β) (l : List α) :
    (l.map f).argmax g = (l.argmax fun a => g (f a)).map f := by
  induction l using List.reverseRecOn with
  | nil => rfl
  | append_singleton l a ih =>
    rw [List.map_append, List.map_singleton, List.argmax_concat, List.argmax_concat, ih]
    cases List.argmax (fun a => g (f a)) l with
    | none => rfl
    | some c =>
      show (if g (f c) < g (f a) then _ else _) = Option.map f (if g (f c) < g (f a) then _ else _)
      split <;> rfl

/-- Erasing an entry, where no two entries have one image. -/
theorem map_erase_of_inj [DecidableEq γ] {f : α → γ} {l : List α} {a : α} (ha : a ∈ l)
    (hinj : ∀ b ∈ l, ∀ c ∈ l, f b = f c → b = c) : (l.erase a).map f = (l.map f).erase (f a) := by
  induction l with
  | nil => rfl
  | cons b l ih =>
    by_cases hba : b = a
    · simp [hba]
    · have hmem : a ∈ l := (List.mem_cons.mp ha).resolve_left fun h => hba h.symm
      have hf : f b ≠ f a := fun h => hba (hinj b List.mem_cons_self a ha h)
      rw [List.erase_cons_tail (by simpa using hba), List.map_cons, List.map_cons,
        List.erase_cons_tail (by simpa using hf)]
      rw [ih hmem fun c hc d hd => hinj c (List.mem_cons_of_mem b hc) d (List.mem_cons_of_mem b hd)]

/-- **Greedy selection looks at values only.**  A renaming of the entries that keeps them apart, and
    keeps their values, renames what is selected. -/
theorem greedy_map [DecidableEq γ] {value' : List γ → γ → β} (f : α → γ)
    (hvalue : ∀ selected a, value' (selected.map f) (f a) = value selected a) (rounds : Nat)
    (selected remaining : List α) (hinj : ∀ b ∈ remaining, ∀ c ∈ remaining, f b = f c → b = c) :
    greedy value' rounds (selected.map f) (remaining.map f) = (greedy value rounds selected remaining).map f := by
  induction rounds generalizing selected remaining with
  | zero => rfl
  | succ rounds ih =>
    have hargmax : (remaining.map f).argmax (value' (selected.map f))
        = (remaining.argmax (value selected)).map f := by
      rw [argmax_map]
      simp only [hvalue]
    cases hbest : remaining.argmax (value selected) with
    | none =>
      obtain rfl := List.argmax_eq_none.mp hbest
      simp
    | some best =>
      rw [hbest] at hargmax
      have hmem : best ∈ remaining := List.argmax_mem hbest
      rw [greedy_succ hargmax, greedy_succ hbest, ← map_erase_of_inj hmem hinj,
        show selected.map f ++ [f best] = (selected ++ [best]).map f by simp]
      exact ih _ _ fun b hb c hc => hinj b (List.mem_of_mem_erase hb) c (List.mem_of_mem_erase hc)

end Map

end Oecophylla.Lib
