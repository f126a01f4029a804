import Mathlib.Data.List.Basic

namespace Oecophylla.Lib

/-!
# Library — stages that may be broken off

A stage looks at the state and makes some writes, one after the other; it may be broken off after any
number of them, and the next stage looks at what is there.

* `breakOff` — a stage that is broken off after some writes;
* `Throughout` — a property of the state before, between and after the writes;
* `Guarded` — writes that are each made under a guard; `throughout_of_guarded`, what those keep;
* `keeps_foldl` — what writes of one kind keep;
* `throughout_run` — what every stage keeps throughout, every run of stages keeps;
* `alike_run` — two systems whose stages stay alike however far both get.
-/

variable {σ τ α ω υ : Type*}

/-- The stage `a.1`, broken off after `a.2` writes. -/
def breakOff (apply : σ → ω → σ) (writes : σ → α → List ω) (s : σ) (a : α × Nat) : σ :=
  ((writes s a.1).take a.2).foldl apply s

/-- Before, between and after the writes. -/
def Throughout (apply : σ → ω → σ) (P : σ → Prop) : σ → List ω → Prop
  | s, [] => P s
  | s, w :: ws => P s ∧ Throughout apply P (apply s w) ws

variable {apply : σ → ω → σ} {writes : σ → α → List ω} {P : σ → Prop} {s : σ}

theorem Throughout.start {ws : List ω} (h : Throughout apply P s ws) : P s := by
  cases ws with
  | nil => exact h
  | cons w ws => exact h.1

theorem Throughout.take {ws : List ω} (h : Throughout apply P s ws) (n : Nat) :
    P ((ws.take n).foldl apply s) := by
  induction ws generalizing s n with
  | nil =>
    rw [List.take_nil]
    exact h
  | cons w ws ih =>
    cases n with
    | zero => exact h.1
    | succ n => exact ih h.2 n

/-- Each write is made under the guard, in the state it is made in. -/
def Guarded (apply : σ → ω → σ) (G : σ → ω → Prop) : σ → List ω → Prop
  | _, [] => True
  | s, w :: ws => G s w ∧ Guarded apply G (apply s w) ws

/-- What every guarded write keeps. -/
theorem throughout_of_guarded {G : σ → ω → Prop} (hkeep : ∀ s w, P s → G s w → P (apply s w))
    {ws : List ω} (hs : P s) (hws : Guarded apply G s ws) : Throughout apply P s ws := by
  induction ws generalizing s with
  | nil => exact hs
  | cons w ws ih => exact ⟨hs, ih (hkeep s w hs hws.1) hws.2⟩

/-- What every write of a kind keeps, wherever it is made. -/
theorem keeps_foldl {Q : ω → Prop} (hkeep : ∀ s w, Q w → P s → P (apply s w)) {ws : List ω}
    (hws : ∀ w ∈ ws, Q w) (hs : P s) : P (ws.foldl apply s) := by
  induction ws generalizing s with
  | nil => exact hs
  | cons w ws ih =>
    exact ih (fun w hw => hws w (List.mem_cons_of_mem _ hw))
      (hkeep s w (hws w List.mem_cons_self) hs)

/-- **Runs of broken stages.** -/
theorem throughout_run (hstage : ∀ s a, P s → Throughout apply P s (writes s a)) (hs : P s)
    (as : List (α × Nat)) : P (as.foldl (breakOff apply writes) s) := by
  induction as generalizing s with
  | nil => exact hs
  | cons a as ih => exact ih ((hstage s a.1 hs).take a.2)

/-- Two systems side by side. -/
theorem alike_run {apply' : τ → υ → τ} {writes' : τ → α → List υ} {R : σ → τ → Prop} {t : τ}
    (hstage : ∀ s t a n, R s t → R (breakOff apply writes s (a, n)) (breakOff apply' writes' t (a, n)))
    (hst : R s t) (as : List (α × Nat)) :
    R (as.foldl (breakOff apply writes) s) (as.foldl (breakOff apply' writes') t) := by
  induction as generalizing s t with
  | nil => exact hst
  | cons a as ih => exact ih (hstage s t a.1 a.2 hst)

end Oecophylla.Lib
