import Mathlib.Data.List.Basic

namespace Oecophylla.Lib

/-!
# Library — histories of a sequential object

An object is a function `spec : σ → ρ → α × σ`: a request in a state has an answer and leaves a state.
A history is a list of requests with their answers.

* `Explained spec s log t` — one after the other, the requests have these answers and lead to `t`;
* `Explained.snoc` — one more request;
* `Explained.pairwise` — what an answer establishes and every request keeps, later answers respect.
-/

variable {σ ρ α : Type*} {spec : σ → ρ → α × σ}

/-- The requests of a history have its answers, one after the other, and lead from `s` to `t`. -/
def Explained (spec : σ → ρ → α × σ) : σ → List (ρ × α) → σ → Prop
  | s, [], t => t = s
  | s, (r, a) :: log, t => (spec s r).1 = a ∧ Explained spec (spec s r).2 log t

/-- One more request at the end. -/
theorem Explained.snoc {s t u : σ} {log : List (ρ × α)} {r : ρ} {a : α} (h : Explained spec s log t)
    (hspec : spec t r = (a, u)) : Explained spec s (log ++ [(r, a)]) u := by
  induction log generalizing s with
  | nil =>
    have hts : t = s := h
    subst hts
    show (spec t r).1 = a ∧ u = (spec t r).2
    rw [hspec]
    exact ⟨rfl, rfl⟩
  | cons e log ih => exact ⟨h.1, ih h.2⟩

/-- What an entry of the history establishes holds to its end, and its later entries respect it. -/
theorem Explained.forall_respects {P : ρ × α → σ → Prop} {R : ρ × α → ρ × α → Prop}
    (hkeep : ∀ e s r, P e s → P e (spec s r).2) (hrespect : ∀ e s r, P e s → R e (r, (spec s r).1))
    {e : ρ × α} {s t : σ} {log : List (ρ × α)} (hP : P e s) (h : Explained spec s log t) :
    ∀ e' ∈ log, R e e' := by
  induction log generalizing s with
  | nil => exact nofun
  | cons e₁ log ih =>
    obtain ⟨r, a⟩ := e₁
    obtain ⟨rfl, hrest⟩ := h
    intro e' he'
    rcases List.mem_cons.mp he' with rfl | hin
    · exact hrespect e s r hP
    · exact ih (hkeep e s r hP) hrest e' hin

/-- **The order of a history.**  What every answer establishes, every request keeps and every answer
    respects, any two entries of a history respect. -/
theorem Explained.pairwise {P : ρ × α → σ → Prop} {R : ρ × α → ρ × α → Prop}
    (hestablish : ∀ s r, P (r, (spec s r).1) (spec s r).2)
    (hkeep : ∀ e s r, P e s → P e (spec s r).2) (hrespect : ∀ e s r, P e s → R e (r, (spec s r).1))
    {s t : σ} {log : List (ρ × α)} (h : Explained spec s log t) : log.Pairwise R := by
  induction log generalizing s with
  | nil => exact List.Pairwise.nil
  | cons e log ih =>
    obtain ⟨r, a⟩ := e
    obtain ⟨rfl, hrest⟩ := h
    exact List.pairwise_cons.mpr
      ⟨hrest.forall_respects hkeep hrespect (hestablish s r), ih hrest⟩

end Oecophylla.Lib
