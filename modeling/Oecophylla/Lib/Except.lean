import Mathlib.Data.List.Basic

namespace Oecophylla.Lib

/-!
# Library — computations that may raise

* `except_bind_eq_ok` — a sequence returns when both parts do;
* `foldlM_eq_ok_iff` — a loop that raises exactly on bad entries returns when all entries
  are good, and then it is a plain loop.
-/

universe u

variable {ε α : Type*} {β γ : Type u}

theorem except_bind_eq_ok {x : Except ε β} {f : β → Except ε γ} {c : γ} :
    (x >>= f) = .ok c ↔ ∃ b, x = .ok b ∧ f b = .ok c := by
  cases x with
  | error e => simp [bind, Except.bind]
  | ok b => simp [bind, Except.bind]

theorem except_pure_eq_ok {a b : α} : (pure a : Except ε α) = .ok b ↔ b = a := by
  show Except.ok a = .ok b ↔ b = a
  rw [Except.ok.injEq]
  exact eq_comm

theorem except_mapError_eq_ok {ε' : Type*} {x : Except ε β} {f : ε → ε'} {b : β} :
    x.mapError f = .ok b ↔ x = .ok b := by
  cases x with
  | error e => simp [Except.mapError]
  | ok a => exact Iff.rfl.trans (by simp [Except.mapError])

theorem except_throw_bind (e : ε) (f : β → Except ε γ) :
    ((throw e : Except ε β) >>= f) = .error e := rfl

/-- A computation that either raises or returns one value. -/
theorem toOption_eq_ite {x : Except ε β} {p : Prop} [Decidable p] {b : β}
    (h : ∀ c, x = .ok c ↔ ¬ p ∧ c = b) : x.toOption = if p then none else some b := by
  cases x with
  | error e =>
    have hp : p := by
      by_contra hno
      simpa using (h b).mpr ⟨hno, rfl⟩
    rw [if_pos hp]
    rfl
  | ok c =>
    obtain ⟨hno, rfl⟩ := (h c).mp rfl
    rw [if_neg hno]
    rfl

/-- A loop that raises exactly on the entries that are not good. -/
theorem foldlM_eq_ok_iff {f : β → α → Except ε β} {g : β → α → β} {good : α → Prop}
    (hgood : ∀ b a, good a → f b a = .ok (g b a))
    (hbad : ∀ b a, ¬ good a → ∃ e, f b a = .error e) {l : List α} {b c : β} :
    l.foldlM f b = .ok c ↔ (∀ a ∈ l, good a) ∧ c = l.foldl g b := by
  induction l generalizing b with
  | nil =>
    rw [List.foldlM_nil, except_pure_eq_ok]
    simp
  | cons a l ih =>
    rw [List.foldlM_cons]
    by_cases ha : good a
    · rw [hgood b a ha, List.forall_mem_cons, List.foldl_cons]
      show l.foldlM f (g b a) = .ok c ↔ _
      rw [ih]
      simp only [ha, true_and]
    · obtain ⟨e, he⟩ := hbad b a ha
      rw [he, List.forall_mem_cons]
      simp [ha, bind, Except.bind]

/-- A traversal returns when every entry does. -/
theorem mapM_eq_ok_iff {α β : Type u} {f : α → Except ε β} {l : List α} {bs : List β} :
    l.mapM f = .ok bs ↔ l.map f = bs.map .ok := by
  induction l generalizing bs with
  | nil =>
    rw [List.mapM_nil, except_pure_eq_ok]
    simp
  | cons a l ih =>
    rw [List.mapM_cons, List.map_cons]
    simp only [except_bind_eq_ok, except_pure_eq_ok, ih]
    constructor
    · rintro ⟨b, hb, cs, hcs, rfl⟩
      rw [hb, hcs, List.map_cons]
    · intro h
      cases bs with
      | nil => simp at h
      | cons b bs =>
        rw [List.map_cons, List.cons.injEq] at h
        exact ⟨b, h.1, bs, h.2, rfl⟩

/-- A traversal for its errors only. -/
theorem exists_mapM_eq_ok_iff {α : Type} {f : α → Except ε Unit} {l : List α} :
    (∃ units, l.mapM f = .ok units) ↔ ∀ a ∈ l, f a = .ok () := by
  constructor
  · rintro ⟨units, hunits⟩ a ha
    have hmem : f a ∈ units.map .ok := by
      rw [← mapM_eq_ok_iff.mp hunits]
      exact List.mem_map_of_mem ha
    obtain ⟨_, -, hok⟩ := List.mem_map.mp hmem
    exact hok.symm
  · intro h
    refine ⟨l.map fun _ => (), mapM_eq_ok_iff.mpr ?_⟩
    rw [List.map_map]
    exact List.map_congr_left h

/-- Two traversals of one list that return, and agree wherever both return. -/
theorem mapM_congr {α β : Type u} {f g : α → Except ε β} {l : List α} {bs cs : List β}
    (hagree : ∀ a ∈ l, ∀ b c, f a = .ok b → g a = .ok c → b = c) (hf : l.mapM f = .ok bs)
    (hg : l.mapM g = .ok cs) : bs = cs := by
  induction l generalizing bs cs with
  | nil =>
    rw [List.mapM_nil, except_pure_eq_ok] at hf hg
    rw [hf, hg]
  | cons a l ih =>
    rw [List.mapM_cons] at hf hg
    simp only [except_bind_eq_ok, except_pure_eq_ok] at hf hg
    obtain ⟨b, hb, bs, hbs, rfl⟩ := hf
    obtain ⟨c, hc, cs, hcs, rfl⟩ := hg
    rw [hagree a (by simp) b c hb hc,
      ih (fun x hx => hagree x (List.mem_cons_of_mem _ hx)) hbs hcs]

/-- What a traversal returns comes from its entries. -/
theorem exists_of_mem_mapM {α β : Type u} {f : α → Except ε β} {l : List α} {bs : List β}
    (h : l.mapM f = .ok bs) {b : β} (hb : b ∈ bs) : ∃ a ∈ l, f a = .ok b := by
  have hmem : (Except.ok b : Except ε β) ∈ l.map f := by
    rw [mapM_eq_ok_iff.mp h]
    exact List.mem_map_of_mem hb
  exact List.mem_map.mp hmem

private theorem filterAuxM_eq_ok {α : Type} {p : α → Except ε Bool} {q : α → Bool} {l acc r : List α}
    (hq : ∀ a ∈ l, ∀ b, p a = .ok b → b = q a) (h : List.filterAuxM p l acc = .ok r) :
    r = (l.filter q).reverse ++ acc := by
  induction l generalizing acc with
  | nil =>
    rw [List.filterAuxM, except_pure_eq_ok] at h
    exact h
  | cons a l ih =>
    rw [List.filterAuxM, except_bind_eq_ok] at h
    obtain ⟨b, hb, h⟩ := h
    have hba : b = q a := hq a (by simp) b hb
    have ih' := ih (fun x hx => hq x (List.mem_cons_of_mem _ hx)) h
    rw [ih', hba]
    cases hqa : q a with
    | true => simp [hqa]
    | false => simp [hqa]

/-- A filter that may raise is, when it returns, the filter by what its test returns. -/
theorem filterM_eq_ok {α : Type} {p : α → Except ε Bool} {q : α → Bool} {l r : List α}
    (hq : ∀ a ∈ l, ∀ b, p a = .ok b → b = q a) (h : l.filterM p = .ok r) : r = l.filter q := by
  rw [List.filterM, except_bind_eq_ok] at h
  obtain ⟨rev, hrev, h⟩ := h
  rw [except_pure_eq_ok] at h
  rw [h, filterAuxM_eq_ok hq hrev]
  simp

private theorem filterAuxM_of_ok {α : Type} {p : α → Except ε Bool} {q : α → Bool} {l acc : List α}
    (hq : ∀ a ∈ l, p a = .ok (q a)) : List.filterAuxM p l acc = .ok ((l.filter q).reverse ++ acc) := by
  induction l generalizing acc with
  | nil => rfl
  | cons a l ih =>
    rw [List.filterAuxM, hq a (by simp)]
    show List.filterAuxM p l (cond (q a) (a :: acc) acc) = _
    rw [ih fun x hx => hq x (List.mem_cons_of_mem _ hx)]
    cases hqa : q a with
    | true => simp [hqa]
    | false => simp [hqa]

/-- A filter whose test returns for every entry returns. -/
theorem filterM_of_ok {α : Type} {p : α → Except ε Bool} {q : α → Bool} {l : List α}
    (hq : ∀ a ∈ l, p a = .ok (q a)) : l.filterM p = .ok (l.filter q) := by
  rw [List.filterM, filterAuxM_of_ok hq]
  show Except.ok ((l.filter q).reverse ++ []).reverse = _
  rw [List.append_nil, List.reverse_reverse]

end Oecophylla.Lib
