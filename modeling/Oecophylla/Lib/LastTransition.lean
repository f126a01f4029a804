import Oecophylla.Lib.StableSort
import Mathlib.Data.List.Induction

namespace Oecophylla.Lib

/-!
# Library — a switch replayed from a sorted log

A log entry turns a switch on, turns it off or leaves it alone (`effect e` is `some true`,
`some false` or `none`).  `settle effect l` is the switch after the whole log.

* `settle_eq_true_iff` — after a strictly sorted log the switch is on exactly when some entry
  turns it on and every entry that turns it off is smaller;
* `settle_stableSort_append_iff` — an entry that is added to the unsorted log and turns the
  switch over does so in the sorted log exactly when it is above all other transitions.
-/

variable {α : Type*} (effect : α → Option Bool)

/-- One entry of the log. -/
def settleStep (b : Bool) (e : α) : Bool := (effect e).getD b

/-- The switch after the log; it starts off. -/
def settle (l : List α) : Bool := l.foldl (settleStep effect) false

variable {effect} {cmp : α → α → Ordering} {l : List α}

@[simp] theorem settle_nil : settle effect [] = false := rfl

theorem settle_append_singleton (l : List α) (e : α) :
    settle effect (l ++ [e]) = (effect e).getD (settle effect l) := by
  simp [settle, settleStep]

theorem settle_map {β : Type*} (g : β → α) (l : List β) :
    settle effect (l.map g) = settle (fun b => effect (g b)) l := by
  unfold settle
  rw [List.foldl_map]
  rfl

/-- The last transition in the order `cmp` turns the switch on. -/
def LastTurnsOn (effect : α → Option Bool) (cmp : α → α → Ordering) (l : List α) : Prop :=
  ∃ e ∈ l, effect e = some true ∧ ∀ f ∈ l, effect f = some false → cmp f e = .lt

instance : Decidable (LastTurnsOn effect cmp l) :=
  inferInstanceAs (Decidable (∃ e ∈ l, _ ∧ ∀ f ∈ l, _ → _))

theorem lastTurnsOn_of_perm {l' : List α} (h : l.Perm l') :
    LastTurnsOn effect cmp l ↔ LastTurnsOn effect cmp l' := by
  unfold LastTurnsOn
  simp only [h.mem_iff]

/-- **A sorted log.**  The switch is on exactly when the last transition turns it on. -/
theorem settle_eq_true_iff [Std.TransCmp cmp] (hsorted : l.Pairwise fun a b => cmp a b = .lt) :
    settle effect l = true ↔ LastTurnsOn effect cmp l := by
  induction l using List.reverseRecOn with
  | nil => simp [LastTurnsOn]
  | append_singleton l e ih =>
    obtain ⟨hl, -, hle⟩ := List.pairwise_append.mp hsorted
    have hbelow : ∀ f ∈ l, cmp f e = .lt := fun f hf => hle f hf e (by simp)
    rw [settle_append_singleton]
    cases he : effect e with
    | none =>
      -- the new entry leaves the switch alone, on both sides
      rw [Option.getD_none, ih hl]
      unfold LastTurnsOn
      constructor
      · rintro ⟨a, ha, hon, hlast⟩
        refine ⟨a, by simp [ha], hon, fun f hf hoff => ?_⟩
        rcases List.mem_append.mp hf with hf | hf
        · exact hlast f hf hoff
        · rw [List.mem_singleton.mp hf, he] at hoff
          simp at hoff
      · rintro ⟨a, ha, hon, hlast⟩
        have hal : a ∈ l := by
          rcases List.mem_append.mp ha with hal | hae
          · exact hal
          · rw [List.mem_singleton.mp hae, he] at hon
            simp at hon
        exact ⟨a, hal, hon, fun f hf => hlast f (by simp [hf])⟩
    | some b =>
      rw [Option.getD_some]
      cases b with
      | true =>
        -- it is above everything, so it is the last transition
        refine iff_of_true rfl ⟨e, by simp, he, fun f hf hoff => ?_⟩
        rcases List.mem_append.mp hf with hf | hf
        · exact hbelow f hf
        · rw [List.mem_singleton.mp hf, he] at hoff
          simp at hoff
      | false =>
        refine iff_of_false (by simp) ?_
        rintro ⟨a, ha, hon, hlast⟩
        have hea : cmp e a = .lt := hlast e (by simp) he
        rcases List.mem_append.mp ha with hal | hae
        · have hswap : cmp e a = (cmp a e).swap := Std.OrientedCmp.eq_swap
          rw [hea, hbelow a hal] at hswap
          simp at hswap
        · rw [List.mem_singleton.mp hae, he] at hon
          simp at hon

/-- The same for a log that is sorted first. -/
theorem settle_stableSort_eq_true_iff [Std.TransCmp cmp]
    (hne : l.Pairwise fun a b => cmp a b ≠ .eq) :
    settle effect (stableSort cmp l) = true ↔ LastTurnsOn effect cmp l := by
  rw [settle_eq_true_iff (pairwise_lt_stableSort hne)]
  exact lastTurnsOn_of_perm (stableSort_perm cmp l)

/-- An entry that leaves the switch alone can be dropped. -/
theorem lastTurnsOn_append_of_none {e : α} (he : effect e = none) :
    LastTurnsOn effect cmp (l ++ [e]) ↔ LastTurnsOn effect cmp l := by
  unfold LastTurnsOn
  constructor
  · rintro ⟨a, ha, hon, hlast⟩
    rcases List.mem_append.mp ha with hal | hae
    · exact ⟨a, hal, hon, fun f hf => hlast f (List.mem_append_left _ hf)⟩
    · rw [List.mem_singleton.mp hae, he] at hon
      contradiction
  · rintro ⟨a, ha, hon, hlast⟩
    refine ⟨a, List.mem_append_left _ ha, hon, fun f hf hoff => ?_⟩
    rcases List.mem_append.mp hf with hfl | hfe
    · exact hlast f hfl hoff
    · rw [List.mem_singleton.mp hfe, he] at hoff
      contradiction

/-- A new entry that turns the switch over, from off to on. -/
private theorem lastTurnsOn_append_on [Std.TransCmp cmp] {e : α} (he : effect e = some true)
    (hoff : ¬ LastTurnsOn effect cmp l) :
    LastTurnsOn effect cmp (l ++ [e]) ↔ ∀ f ∈ l, effect f ≠ none → cmp f e = .lt := by
  constructor
  · rintro ⟨a, ha, hon, hlast⟩ f hf heffect
    have hae : a = e := by
      rcases List.mem_append.mp ha with hal | hae
      · exact absurd ⟨a, hal, hon, fun f hf => hlast f (List.mem_append_left _ hf)⟩ hoff
      · exact List.mem_singleton.mp hae
    subst hae
    match hf' : effect f with
    | none => exact absurd hf' heffect
    | some false => exact hlast f (List.mem_append_left _ hf) hf'
    | some true =>
      -- it was turned off again later, before the new entry
      by_contra hnot
      apply hoff
      refine ⟨f, hf, hf', fun g hg hgoff => ?_⟩
      have hga : cmp g a = .lt := hlast g (List.mem_append_left _ hg) hgoff
      have haf : (cmp a f).isLE = true := by
        have hswap : cmp a f = (cmp f a).swap := Std.OrientedCmp.eq_swap
        rw [hswap]
        cases hfa : cmp f a <;> simp_all
      exact Std.TransCmp.lt_of_lt_of_isLE hga haf
  · intro hbelow
    refine ⟨e, by simp, he, fun f hf hfoff => ?_⟩
    rcases List.mem_append.mp hf with hfl | hfe
    · exact hbelow f hfl (by rw [hfoff]; simp)
    · rw [List.mem_singleton.mp hfe, he] at hfoff
      contradiction

/-- A new entry that turns the switch over, from on to off. -/
private theorem lastTurnsOn_append_off [Std.TransCmp cmp] {e : α} (he : effect e = some false)
    (hne : ∀ f ∈ l, cmp f e ≠ .eq) (hon : LastTurnsOn effect cmp l) :
    ¬ LastTurnsOn effect cmp (l ++ [e]) ↔ ∀ f ∈ l, effect f ≠ none → cmp f e = .lt := by
  obtain ⟨a, ha, haon, halast⟩ := hon
  constructor
  · intro hoff f hf heffect
    by_contra hnot
    have hef : cmp e f = .lt := by
      have hswap : cmp e f = (cmp f e).swap := Std.OrientedCmp.eq_swap
      rw [hswap]
      have hneq := hne f hf
      cases hfe : cmp f e <;> simp_all
    apply hoff
    -- the entry that was turned on last, or `f` when it is above that one
    match hae : cmp e a with
    | .lt =>
      refine ⟨a, List.mem_append_left _ ha, haon, fun g hg hgoff => ?_⟩
      rcases List.mem_append.mp hg with hgl | hge
      · exact halast g hgl hgoff
      · rw [List.mem_singleton.mp hge]
        exact hae
    | .eq => exact absurd (Std.OrientedCmp.eq_symm hae) (hne a ha)
    | .gt =>
      have haf : cmp a f = .lt := Std.TransCmp.lt_trans (Std.OrientedCmp.lt_of_gt hae) hef
      have hfon : effect f = some true := by
        match hf' : effect f with
        | none => exact absurd hf' heffect
        | some true => rfl
        | some false =>
          have hfa := Std.OrientedCmp.gt_of_lt (halast f hf hf')
          rw [haf] at hfa
          contradiction
      refine ⟨f, List.mem_append_left _ hf, hfon, fun g hg hgoff => ?_⟩
      rcases List.mem_append.mp hg with hgl | hge
      · exact Std.TransCmp.lt_trans (halast g hgl hgoff) haf
      · rw [List.mem_singleton.mp hge]
        exact hef
  · rintro hbelow ⟨w, hw, hwon, hwlast⟩
    have hwl : w ∈ l := by
      rcases List.mem_append.mp hw with hwl | hwe
      · exact hwl
      · rw [List.mem_singleton.mp hwe, he] at hwon
        contradiction
    have hlt : cmp e w = .lt := hwlast e (by simp) he
    have hgt := Std.OrientedCmp.gt_of_lt (hbelow w hwl (by rw [hwon]; simp))
    rw [hlt] at hgt
    contradiction

/-- **Turning the switch over.**  An entry that turns the switch over when it is added to the
    unsorted log does so in the sorted one exactly when it is above all other transitions. -/
theorem settle_stableSort_append_iff [Std.TransCmp cmp] {e : α}
    (hne : (l ++ [e]).Pairwise fun a b => cmp a b ≠ .eq)
    (he : effect e = some (!settle effect (stableSort cmp l))) :
    settle effect (stableSort cmp (l ++ [e])) = !settle effect (stableSort cmp l)
      ↔ ∀ f ∈ l, effect f ≠ none → cmp f e = .lt := by
  obtain ⟨hl, -, hle⟩ := List.pairwise_append.mp hne
  have hnew : settle effect (stableSort cmp (l ++ [e])) = true ↔ LastTurnsOn effect cmp (l ++ [e]) :=
    settle_stableSort_eq_true_iff hne
  have hold : settle effect (stableSort cmp l) = true ↔ LastTurnsOn effect cmp l :=
    settle_stableSort_eq_true_iff hl
  have hbelow : ∀ f ∈ l, cmp f e ≠ .eq := fun f hf => hle f hf e (by simp)
  cases hb : settle effect (stableSort cmp l) with
  | false =>
    rw [hb] at hold he
    rw [Bool.not_false, hnew]
    exact lastTurnsOn_append_on he (by simpa using hold)
  | true =>
    rw [hb] at hold he
    rw [Bool.not_true, ← Bool.not_eq_true, hnew]
    exact lastTurnsOn_append_off he hbelow (hold.mp rfl)

/-- An entry that leaves the switch alone does so in the sorted log. -/
theorem settle_stableSort_append_of_none [Std.TransCmp cmp] {e : α}
    (hne : (l ++ [e]).Pairwise fun a b => cmp a b ≠ .eq) (he : effect e = none) :
    settle effect (stableSort cmp (l ++ [e])) = settle effect (stableSort cmp l) := by
  rw [Bool.eq_iff_iff, settle_stableSort_eq_true_iff hne,
    settle_stableSort_eq_true_iff (List.pairwise_append.mp hne).1]
  exact lastTurnsOn_append_of_none he

end Oecophylla.Lib
