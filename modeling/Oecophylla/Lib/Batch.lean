import Mathlib.Data.List.Basic
import Oecophylla.Lib.OrderedDict

namespace Oecophylla.Lib

/-!
# Library — batches

A costly function is called once, on a list of the inputs for which its value is not known.

* `fill` — the known values, and at the other places those of the batch in turn;
* `fill_map` — what is filled in so is the function at every place;
* `mapM_eq_error` — a traversal all of whose refusals are one.
-/

variable {α β : Type*}

/-- The values that are known, and at the other places the computed ones in turn. -/
def fill : List (Option β) → List β → List β
  | [], _ => []
  | some b :: known, computed => b :: fill known computed
  | none :: known, c :: computed => c :: fill known computed
  | none :: known, [] => fill known []

/-- **Filling in.**  When the known values are right, and the batch is of the other inputs. -/
theorem fill_map {f : α → β} {known : α → Option β} {l : List α}
    (hknown : ∀ a ∈ l, ∀ b ∈ known a, b = f a) :
    fill (l.map known) ((l.filter fun a => (known a).isNone).map f) = l.map f := by
  induction l with
  | nil => rfl
  | cons a l ih =>
    have hrest := ih fun x hx => hknown x (List.mem_cons_of_mem a hx)
    cases ha : known a with
    | none =>
      rw [List.filter_cons_of_pos (by simp [ha]), List.map_cons, List.map_cons, List.map_cons, ha]
      show f a :: fill _ _ = _
      rw [hrest]
    | some b =>
      rw [List.filter_cons_of_neg (by simp [ha]), List.map_cons, List.map_cons, ha]
      show b :: fill _ _ = _
      rw [hrest, hknown a List.mem_cons_self b ha]

/-- A traversal in which nothing but one error is raised. -/
theorem mapM_eq_error {ε α : Type*} {β : Type} {f : α → Except ε β} {e : ε} {l : List α}
    (h : ∀ a ∈ l, (∃ b, f a = .ok b) ∨ f a = .error e) (hbad : ∃ a ∈ l, f a = .error e) :
    l.mapM f = .error e := by
  induction l with
  | nil =>
    obtain ⟨a, ha, -⟩ := hbad
    cases ha
  | cons a l ih =>
    rw [List.mapM_cons]
    rcases h a List.mem_cons_self with ⟨b, hb⟩ | he
    · -- the bad entry comes later
      have hlater : ∃ x ∈ l, f x = .error e := by
        obtain ⟨x, hx, hxe⟩ := hbad
        rcases List.mem_cons.mp hx with rfl | hx
        · rw [hb] at hxe
          cases hxe
        · exact ⟨x, hx, hxe⟩
      rw [hb, ih (fun x hx => h x (List.mem_cons_of_mem a hx)) hlater]
      rfl
    · rw [he]
      rfl

end Oecophylla.Lib
