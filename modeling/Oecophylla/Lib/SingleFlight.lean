import Mathlib.Algebra.GroupWithZero.Nat
import Mathlib.Data.List.Basic
import Mathlib.Tactic.Common

namespace Oecophylla.Lib

/-!
# Library — one flight at a time

Callers that need the same piece of work share one flight of it.  The first caller takes off and
keeps the flight under a lock; who comes while the lock is held waits for that flight; when it has
landed, the caller who took off gives the lock back.  Landing and giving back are two steps: callers
may come in between.

* `join` / `land` / `release` — the steps;
* `Single` — the lock is held by the one flight that is not released;
* `single_join` / `single_land` / `single_release` — every step keeps it;
* `Single.eq_of_pending` — no two flights are in the air.
-/

/-- What one entry adds to a sum is exchanged. -/
theorem sum_map_set {α : Type*} (w : α → Nat) {l : List α} {i : Nat} {a : α} (b : α)
    (hi : l[i]? = some a) : ((l.set i b).map w).sum + w a = (l.map w).sum + w b := by
  induction l generalizing i with
  | nil => cases hi
  | cons c l ih =>
    cases i with
    | zero =>
      obtain rfl : c = a := by simpa using hi
      simp only [List.set_cons_zero, List.map_cons, List.sum_cons]
      omega
    | succ i =>
      have hrest := ih (i := i) (by simpa using hi)
      simp only [List.set_cons_succ, List.map_cons, List.sum_cons]
      omega

/-- A flight: what it brought, and whether its caller gave the lock back. -/
structure Flight (β : Type*) where
  outcome : Option β := none
  released : Bool := false
  deriving DecidableEq, Repr

/-- The steps that are left to a flight. -/
def Flight.left {β : Type*} (f : Flight β) : Nat :=
  (if f.outcome.isSome then 0 else 1) + if f.released then 0 else 1

/-- The flights in the order of their starts, and the lock. -/
structure Flights (β : Type*) where
  flights : List (Flight β) := []
  lock : Option Nat := none
  deriving DecidableEq, Repr

namespace Flights

variable {β : Type*}

/-- What a flight brought. -/
def outcome (s : Flights β) (p : Nat) : Option β := s.flights[p]?.bind fun f => f.outcome

/-- A flight is in the air. -/
def Pending (s : Flights β) (p : Nat) : Prop := ∃ f, s.flights[p]? = some f ∧ f.outcome = none

/-- The flight to wait for, and whether the caller took off with it. -/
def join (s : Flights β) : Flights β × Nat × Bool :=
  match s.lock with
  | some p => (s, p, false)
  | none => ({ flights := s.flights ++ [{}], lock := some s.flights.length }, s.flights.length, true)

/-- A flight lands, once. -/
def land (s : Flights β) (p : Nat) (v : β) : Option (Flights β) :=
  match s.flights[p]? with
  | some ⟨none, released⟩ => some { s with flights := s.flights.set p ⟨some v, released⟩ }
  | _ => none

/-- Whoever took off gives back the lock, whatever it holds by then. -/
def release (s : Flights β) (p : Nat) : Option (Flights β) :=
  match s.flights[p]? with
  | some ⟨some v, false⟩ => some { flights := s.flights.set p ⟨some v, true⟩, lock := none }
  | _ => none

/-- The steps that are left to the flights. -/
def steps (s : Flights β) : Nat := (s.flights.map Flight.left).sum

/-- The lock is held by the one flight that is not released, and only what has landed is. -/
structure Single (s : Flights β) : Prop where
  locked : ∀ p ∈ s.lock, p < s.flights.length
  holder : ∀ p f, s.flights[p]? = some f → (f.released = false ↔ s.lock = some p)
  landed : ∀ f ∈ s.flights, f.released = true → f.outcome.isSome = true

variable {s t : Flights β} {p q : Nat} {v : β}

/-! ### Reading the steps -/

/-- Only a pending flight lands. -/
theorem land_cases (ht : s.land p v = some t) :
    ∃ released, s.flights[p]? = some ⟨none, released⟩
      ∧ t = { s with flights := s.flights.set p ⟨some v, released⟩ } := by
  unfold land at ht
  split at ht
  · next released hp => exact ⟨released, hp, (Option.some.inj ht).symm⟩
  · cases ht

/-- Only a flight that has landed and is not released gives the lock back. -/
theorem release_cases (ht : s.release p = some t) :
    ∃ v, s.flights[p]? = some ⟨some v, false⟩
      ∧ t = { flights := s.flights.set p ⟨some v, true⟩, lock := none } := by
  unfold release at ht
  split at ht
  · next v hp => exact ⟨v, hp, (Option.some.inj ht).symm⟩
  · cases ht

/-- Who comes while the lock is held waits for that flight. -/
theorem join_of_locked (h : s.lock = some p) : s.join = (s, p, false) := by
  simp [join, h]

/-- Who finds the lock free takes off. -/
theorem join_of_unlocked (h : s.lock = none) :
    s.join = ({ flights := s.flights ++ [{}], lock := some s.flights.length }, s.flights.length, true) := by
  simp [join, h]

theorem land_of_pending {f : Flight β} (hp : s.flights[p]? = some f) (h : f.outcome = none) :
    ∃ t, s.land p v = some t := by
  obtain ⟨outcome, released⟩ := f
  cases h
  exact ⟨_, by unfold land; rw [hp]⟩

theorem release_of_landed {f : Flight β} (hp : s.flights[p]? = some f) (h : f.outcome = some v)
    (hreleased : f.released = false) : ∃ t, s.release p = some t := by
  obtain ⟨outcome, released⟩ := f
  cases h
  cases hreleased
  exact ⟨_, by unfold release; rw [hp]⟩

private theorem lt_of_getElem? {f : Flight β} (hp : s.flights[p]? = some f) : p < s.flights.length :=
  (List.getElem?_eq_some_iff.mp hp).1

theorem length_land (ht : s.land p v = some t) : t.flights.length = s.flights.length := by
  obtain ⟨released, -, rfl⟩ := land_cases ht
  simp

theorem length_release (ht : s.release p = some t) : t.flights.length = s.flights.length := by
  obtain ⟨v, -, rfl⟩ := release_cases ht
  simp

/-- Who takes off adds a flight, the last one; who waits adds none. -/
theorem length_join :
    s.join.1.flights.length = s.flights.length + (if s.join.2.2 then 1 else 0)
      ∧ (s.join.2.2 = true → s.join.2.1 = s.flights.length) := by
  cases hlock : s.lock with
  | some p => simp [join_of_locked hlock]
  | none => simp [join_of_unlocked hlock]

theorem Single.join_lt (h : s.Single) : s.join.2.1 < s.join.1.flights.length := by
  cases hlock : s.lock with
  | some p => simpa [join_of_locked hlock] using h.locked p hlock
  | none => simp [join_of_unlocked hlock]

/-! ### One holder -/

theorem single_new : Single ({} : Flights β) where
  locked := by simp
  holder := by simp
  landed := by simp

/-- So is it kept by joining. -/
theorem single_join (h : s.Single) : s.join.1.Single := by
  cases hlock : s.lock with
  | some p => rwa [join_of_locked hlock]
  | none =>
    rw [join_of_unlocked hlock]
    refine ⟨by simp, fun q f hq => ?_, fun f hf => ?_⟩
    · rcases Nat.lt_trichotomy q s.flights.length with hlt | rfl | hgt
      · -- Every flight so far is released, since nothing holds the lock.
        have hold : s.flights[q]? = some f := by rwa [List.getElem?_append_left hlt] at hq
        have hreleased := h.holder q f hold
        rw [hlock] at hreleased
        have hne : s.flights.length ≠ q := by omega
        simp [hreleased, hne]
      · obtain rfl : ({} : Flight β) = f := by simpa using hq
        simp
      · rw [List.getElem?_eq_none (by simp; omega)] at hq
        cases hq
    · rcases List.mem_append.mp hf with hf | hf
      · exact h.landed f hf
      · obtain rfl := List.mem_singleton.mp hf
        simp

/-- A landing keeps the flight under the lock the only one. -/
theorem single_land (h : s.Single) (ht : s.land p v = some t) : t.Single := by
  obtain ⟨released, hp, rfl⟩ := land_cases ht
  refine ⟨fun q hq => by simpa using h.locked q hq, fun q f hq => ?_, fun f hf hreleased => ?_⟩
  · rcases eq_or_ne p q with rfl | hne
    · obtain rfl : ⟨some v, released⟩ = f := by simpa [lt_of_getElem? hp] using hq
      have hheld : released = false ↔ s.lock = some p := h.holder p _ hp
      exact hheld
    · exact h.holder q f (by simpa [List.getElem?_set_ne hne] using hq)
  · rcases List.mem_or_eq_of_mem_set hf with hf | rfl
    · exact h.landed f hf hreleased
    · rfl

/-- The flight under the lock gives it back, and none holds it. -/
theorem single_release (h : s.Single) (ht : s.release p = some t) : t.Single := by
  obtain ⟨v, hp, rfl⟩ := release_cases ht
  have hlock : s.lock = some p := (h.holder p _ hp).mp rfl
  refine ⟨by simp, fun q f hq => ?_, fun f hf hreleased => ?_⟩
  · rcases eq_or_ne p q with rfl | hne
    · obtain rfl : ⟨some v, true⟩ = f := by simpa [lt_of_getElem? hp] using hq
      simp
    · have hold : s.flights[q]? = some f := by simpa [List.getElem?_set_ne hne] using hq
      have hreleased := h.holder q f hold
      rw [hlock, Option.some.injEq] at hreleased
      simp [hreleased, hne]
  · rcases List.mem_or_eq_of_mem_set hf with hf | rfl
    · exact h.landed f hf hreleased
    · rfl

namespace Single

/-- A flight in the air holds the lock. -/
theorem lock_of_pending (h : s.Single) (hp : s.Pending p) : s.lock = some p := by
  obtain ⟨f, hp, hf⟩ := hp
  refine (h.holder p f hp).mp ?_
  by_contra hreleased
  have hlanded := h.landed f (List.mem_of_getElem? hp) (by simpa using hreleased)
  simp [hf] at hlanded

/-- No two flights are in the air. -/
theorem eq_of_pending (h : s.Single) (hp : s.Pending p) (hq : s.Pending q) : p = q :=
  Option.some.inj ((h.lock_of_pending hp).symm.trans (h.lock_of_pending hq))

end Single

/-! ### What flights brought stays -/

theorem outcome_of_land (ht : s.land p v = some t) :
    t.outcome p = some v ∧ ∀ q, q ≠ p → t.outcome q = s.outcome q := by
  obtain ⟨released, hp, rfl⟩ := land_cases ht
  constructor
  · simp [outcome, lt_of_getElem? hp]
  · intro q hq
    simp [outcome, List.getElem?_set_ne hq.symm]

theorem outcome_of_release (ht : s.release p = some t) (q : Nat) : t.outcome q = s.outcome q := by
  obtain ⟨v, hp, rfl⟩ := release_cases ht
  rcases eq_or_ne p q with rfl | hne
  · have hset : (s.flights.set p ⟨some v, true⟩)[p]? = some ⟨some v, true⟩ :=
      List.getElem?_set_self (lt_of_getElem? hp)
    simp only [outcome, hset, hp, Option.bind_some]
  · simp [outcome, List.getElem?_set_ne hne]

theorem outcome_join (q : Nat) : s.join.1.outcome q = s.outcome q := by
  cases hlock : s.lock with
  | some p => rw [join_of_locked hlock]
  | none =>
    rw [join_of_unlocked hlock]
    rcases Nat.lt_trichotomy q s.flights.length with hlt | rfl | hgt
    · simp [outcome, List.getElem?_append_left hlt]
    · simp [outcome]
    · have hnew : (s.flights ++ [({} : Flight β)])[q]? = none :=
        List.getElem?_eq_none (by simp; omega)
      have hold : s.flights[q]? = none := List.getElem?_eq_none (by omega)
      simp [outcome, hnew, hold]

/-- An outcome stays. -/
theorem outcome_mono_land (ht : s.land p v = some t) {q : Nat} {w : β} (hq : s.outcome q = some w) :
    t.outcome q = some w := by
  rcases eq_or_ne q p with rfl | hne
  · obtain ⟨released, hp, -⟩ := land_cases ht
    simp [outcome, hp] at hq
  · rw [(outcome_of_land ht).2 q hne, hq]

/-! ### The steps that are left -/

/-- A landing uses up one step. -/
theorem steps_of_land (ht : s.land p v = some t) : t.steps + 1 = s.steps := by
  obtain ⟨released, hp, rfl⟩ := land_cases ht
  have hsum := sum_map_set Flight.left ⟨some v, released⟩ hp
  have hnow : Flight.left (⟨some v, released⟩ : Flight β) + 1 = Flight.left (⟨none, released⟩ : Flight β) := by
    simp [Flight.left]
    omega
  show ((s.flights.set p _).map Flight.left).sum + 1 = (s.flights.map Flight.left).sum
  omega

/-- So does a release. -/
theorem steps_of_release (ht : s.release p = some t) : t.steps + 1 = s.steps := by
  obtain ⟨v, hp, rfl⟩ := release_cases ht
  have hsum := sum_map_set Flight.left ⟨some v, true⟩ hp
  have hnow : Flight.left (⟨some v, true⟩ : Flight β) + 1 = Flight.left (⟨some v, false⟩ : Flight β) := by
    simp [Flight.left]
  show ((s.flights.set p _).map Flight.left).sum + 1 = (s.flights.map Flight.left).sum
  omega

theorem steps_le (s : Flights β) : s.steps ≤ 2 * s.flights.length := by
  unfold steps
  induction s.flights with
  | nil => simp
  | cons f l ih =>
    have hf : f.left ≤ 2 := by
      unfold Flight.left
      split_ifs <;> omega
    simp only [List.map_cons, List.sum_cons, List.length_cons]
    omega

/-- Who joins adds a flight at most: two steps. -/
theorem steps_join : s.join.1.steps ≤ s.steps + 2 := by
  cases hlock : s.lock with
  | some p =>
    rw [join_of_locked hlock]
    exact Nat.le_add_right _ _
  | none =>
    rw [join_of_unlocked hlock]
    simp [steps, Flight.left]

end Flights

end Oecophylla.Lib
