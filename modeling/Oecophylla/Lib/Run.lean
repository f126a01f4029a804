import Mathlib.Data.Option.Basic
import Mathlib.Data.List.Basic
import Mathlib.Data.Nat.Cast.Defs
import Mathlib.Logic.Function.Basic

namespace Oecophylla.Lib

/-!
# Library — runs of a partial step function

A system is a step function `step : σ → α → Option σ`: `none` says that the action is not
enabled in the state.  This file has the runs of such a system and their induction rules:

* `run step s as` — perform the actions `as` one after the other, starting in `s`;
* `Along step guard s as` — every action of the run is taken in a state that meets `guard`
  (a condition on the state *before* the step, such as "the branch that goes wrong is not
  taken here");
* `run_invariant` / `run_invariant_along` — what every (guarded) step preserves, every
  (guarded) run preserves;
* `forall_prefix_iff_along` — a guard that is the exact condition for a step is the exact
  condition for a run;
* `run_append` / `along_append` — runs compose;
* `stepAt` / `run_at` — components that share nothing: a run of them all is a run of each one;
* `neZero_two`, `atLeastTwo_two` — instances for two parties, and for the numeral 2 of a field; a
  definition that takes them has no proof of its own inside.
-/

variable {σ α : Type*} (step : σ → α → Option σ)

/-- Perform the actions in order, `none` as soon as one of them is not enabled. -/
def run : σ → List α → Option σ
  | s, [] => some s
  | s, a :: as => (step s a).bind fun t => run t as

/-- Every action of the run starting in `s` is taken in a state that meets `guard`. -/
def Along (guard : σ → α → Prop) : σ → List α → Prop
  | _, [] => True
  | s, a :: as => guard s a ∧ ∀ t ∈ step s a, Along guard t as

variable {step}

@[simp] theorem run_nil (s : σ) : run step s [] = some s := rfl

theorem run_cons (s : σ) (a : α) (as : List α) :
    run step s (a :: as) = (step s a).bind fun t => run step t as := rfl

@[simp] theorem along_nil (guard : σ → α → Prop) (s : σ) : Along step guard s [] := trivial

theorem along_cons (guard : σ → α → Prop) (s : σ) (a : α) (as : List α) :
    Along step guard s (a :: as) ↔ guard s a ∧ ∀ t ∈ step s a, Along step guard t as := Iff.rfl

/-- A first step and a run of the rest, read off a run of a non-empty list. -/
theorem run_cons_eq_some {s t : σ} {a : α} {as : List α} :
    run step s (a :: as) = some t ↔ ∃ u, step s a = some u ∧ run step u as = some t := by
  rw [run_cons, Option.bind_eq_some_iff]

theorem run_append {s t : σ} {as bs : List α} :
    run step s (as ++ bs) = some t ↔ ∃ u, run step s as = some u ∧ run step u bs = some t := by
  induction as generalizing s with
  | nil => simp
  | cons a as ih =>
    simp only [List.cons_append, run_cons_eq_some, ih]
    constructor
    · rintro ⟨v, hv, u, hu, ht⟩
      exact ⟨u, ⟨v, hv, hu⟩, ht⟩
    · rintro ⟨u, ⟨v, hv, hu⟩, ht⟩
      exact ⟨v, hv, u, hu, ht⟩

theorem along_append {guard : σ → α → Prop} {s u : σ} {as bs : List α}
    (hrun : run step s as = some u) :
    Along step guard s (as ++ bs) ↔ Along step guard s as ∧ Along step guard u bs := by
  induction as generalizing s with
  | nil =>
    rw [run_nil, Option.some.injEq] at hrun
    subst hrun
    simp
  | cons a as ih =>
    obtain ⟨v, hv, hu⟩ := run_cons_eq_some.mp hrun
    simp only [List.cons_append, along_cons, hv, Option.mem_some_iff, forall_eq', ih hu, and_assoc]

/-- A condition on the actions alone. -/
theorem along_of_forall {guard : σ → α → Prop} {as : List α} (h : ∀ a ∈ as, ∀ s, guard s a) (s : σ) :
    Along step guard s as := by
  induction as generalizing s with
  | nil => trivial
  | cons a as ih =>
    have hrest : ∀ b ∈ as, ∀ s, guard s b := fun b hb => h b (List.mem_cons_of_mem a hb)
    exact ⟨h a List.mem_cons_self s, fun t _ => ih hrest t⟩

theorem Along.and {guard guard' : σ → α → Prop} {as : List α} {s : σ} (h : Along step guard s as)
    (h' : Along step guard' s as) : Along step (fun s a => guard s a ∧ guard' s a) s as := by
  induction as generalizing s with
  | nil => trivial
  | cons a as ih => exact ⟨⟨h.1, h'.1⟩, fun t ht => ih (h.2 t ht) (h'.2 t ht)⟩

/-- **Invariant rule for guarded runs.**  What holds at the start and is preserved by every
    step taken where `guard` holds, holds at the end of every run that meets `guard`. -/
theorem run_invariant_along {guard : σ → α → Prop} {P : σ → Prop}
    (hstep : ∀ s a t, P s → guard s a → step s a = some t → P t)
    {s t : σ} {as : List α} (hs : P s) (hrun : run step s as = some t)
    (halong : Along step guard s as) : P t := by
  induction as generalizing s with
  | nil =>
    rw [run_nil, Option.some.injEq] at hrun
    exact hrun ▸ hs
  | cons a as ih =>
    obtain ⟨u, hu, ht⟩ := run_cons_eq_some.mp hrun
    obtain ⟨hguard, hrest⟩ := (along_cons guard s a as).mp halong
    exact ih (hstep s a u hs hguard hu) ht (hrest u hu)

/-- **Invariant rule for all runs.** -/
theorem run_invariant {P : σ → Prop} (hstep : ∀ s a t, P s → step s a = some t → P t)
    {s t : σ} {as : List α} (hs : P s) (hrun : run step s as = some t) : P t := by
  induction as generalizing s with
  | nil =>
    rw [run_nil, Option.some.injEq] at hrun
    exact hrun ▸ hs
  | cons a as ih =>
    obtain ⟨u, hu, ht⟩ := run_cons_eq_some.mp hrun
    exact ih (hstep s a u hs hu) ht

/-- **A condition that is exact.**  When a step from a good state leads to a good state exactly
    when it meets the guard, all states of a run are good exactly when all its steps meet it.  The
    invariant has to last while the states are good. -/
theorem forall_prefix_iff_along {guard : σ → α → Prop} {I P : σ → Prop}
    (hinv : ∀ s a t, I s → P s → step s a = some t → I t)
    (hexact : ∀ s a t, I s → P s → step s a = some t → (P t ↔ guard s a))
    {s t : σ} {as : List α} (hI : I s) (hP : P s) (hrun : run step s as = some t) :
    (∀ bs u, bs <+: as → run step s bs = some u → P u) ↔ Along step guard s as := by
  induction as generalizing s with
  | nil =>
    simp only [List.prefix_nil, along_nil, iff_true]
    rintro bs u rfl hu
    exact Option.some.inj hu ▸ hP
  | cons a as ih =>
    obtain ⟨u, hu, ht⟩ := run_cons_eq_some.mp hrun
    rw [along_cons]
    constructor
    · intro hall
      have hPu : P u := hall [a] u (by simp) (by rw [run_cons, hu]; rfl)
      refine ⟨(hexact s a u hI hP hu).mp hPu, fun v hv => ?_⟩
      obtain rfl : u = v := Option.some.inj (hu.symm.trans hv)
      refine (ih (hinv s a u hI hP hu) hPu ht).mp fun bs w hbs hw => ?_
      exact hall (a :: bs) w (List.cons_prefix_cons.mpr ⟨rfl, hbs⟩)
        (run_cons_eq_some.mpr ⟨u, hu, hw⟩)
    · rintro ⟨hguard, hrest⟩ bs w hbs hw
      have hPu : P u := (hexact s a u hI hP hu).mpr hguard
      cases bs with
      | nil => exact Option.some.inj hw ▸ hP
      | cons b bs =>
        obtain ⟨rfl, hrestPrefix⟩ := List.cons_prefix_cons.mp hbs
        obtain ⟨v, hv, hw⟩ := run_cons_eq_some.mp hw
        obtain rfl : u = v := Option.some.inj (hu.symm.trans hv)
        exact (ih (hinv s b u hI hP hu) hPu ht).mpr (hrest u hu) bs w hrestPrefix hw

/-- A guard is checked along a concrete run by evaluating the run. -/
def decidableAlong (guard : σ → α → Prop) [∀ s a, Decidable (guard s a)] :
    (as : List α) → (s : σ) → Decidable (Along step guard s as)
  | [], _ => .isTrue trivial
  | a :: as, s =>
    have : Decidable (∀ t ∈ step s a, Along step guard t as) :=
      match h : step s a with
      | none => .isTrue (by simp)
      | some u => @decidable_of_iff _ _ (by simp) (decidableAlong guard as u)
    inferInstanceAs (Decidable (guard s a ∧ ∀ t ∈ step s a, Along step guard t as))

instance (guard : σ → α → Prop) [∀ s a, Decidable (guard s a)] (s : σ) (as : List α) :
    Decidable (Along step guard s as) := decidableAlong guard as s

/-! ### Components that share nothing -/

section Components

variable {κ : Type*} [DecidableEq κ] (step)

/-- A step of the component with the given key; the others stay as they are. -/
def stepAt (s : κ → σ) (a : κ × α) : Option (κ → σ) :=
  (step (s a.1) a.2).map fun t => Function.update s a.1 t

/-- What is done to one component. -/
def actionsAt (k : κ) (as : List (κ × α)) : List α := (as.filter fun a => a.1 = k).map fun a => a.2

/-- **A run of all components is a run of each.**  What the others do in between changes nothing for
    the component, so an invariant of its own runs is one of the whole system. -/
theorem run_at {s t : κ → σ} {as : List (κ × α)} (hrun : run (stepAt step) s as = some t) (k : κ) :
    run step (s k) (actionsAt k as) = some (t k) := by
  induction as generalizing s with
  | nil =>
    obtain rfl := Option.some.inj hrun
    rfl
  | cons a as ih =>
    obtain ⟨u, hu, ht⟩ := run_cons_eq_some.mp hrun
    obtain ⟨v, hv, rfl⟩ := Option.map_eq_some_iff.mp hu
    have hrest := ih ht
    by_cases hk : a.1 = k
    · subst hk
      rw [Function.update_self] at hrest
      simpa [actionsAt] using run_cons_eq_some.mpr ⟨v, hv, hrest⟩
    · rw [Function.update_of_ne (Ne.symm hk)] at hrest
      simpa [actionsAt, hk] using hrest

end Components

/-! ### The numeral 2 -/

/-- What the numerals of `Fin 2` rest on.  The zero is the one that they name, whatever else of Mathlib
    is imported. -/
theorem neZero_two : @NeZero Nat Zero.ofOfNat0 2 := ⟨Nat.succ_ne_zero 1⟩

/-- What the numeral 2 of a field rests on. -/
theorem atLeastTwo_two : Nat.AtLeastTwo 2 := ⟨Nat.le_refl 2⟩

end Oecophylla.Lib
