import Oecophylla.Lib.Words

namespace Oecophylla.Lib

/-!
# Canonical composition of texts

The normalization form NFC over tables of decompositions, combining classes and primary
composites, as Unicode defines it: decompose, put marks in order, compose.

* `Tables`, `Tables.nfc` — the tables and the normal form;
* `Tables.Inert` — blanks are starters that compose with nothing;
* `Tables.nfc_append_cons` — a blank cuts the normal form of a text;
* `Tables.words_nfc` — the words of a normal form are the normal forms of the words.
-/

variable {α : Type*}

/-- Full decompositions, combining classes (zero for a starter), and primary composites. -/
structure Tables (α : Type*) where
  decompose : α → List α
  combiningClass : α → ℕ
  compose : α → α → Option α

namespace Tables

variable (t : Tables α)

/-- Put a character before a text in order: behind the marks of lower classes. -/
def place (c : α) : List α → List α
  | [] => [c]
  | d :: ds =>
    if 0 < t.combiningClass d ∧ t.combiningClass d < t.combiningClass c then d :: place c ds
    else c :: d :: ds

/-- The canonical order: the marks after a starter by their classes, equal classes as they were. -/
def reorder (text : List α) : List α := text.foldr t.place []

/-- A mark between a starter and a character keeps them apart. -/
def blocked (marks : List α) (c : α) : Bool :=
  marks.any fun m => t.combiningClass m == 0 || t.combiningClass c ≤ t.combiningClass m

/-- Compose what follows a starter and the marks that stay behind it. -/
def composeFrom (starter : α) (marks : List α) : List α → List α
  | [] => starter :: marks
  | c :: cs =>
    match if t.blocked marks c then none else t.compose starter c with
    | some composite => composeFrom composite marks cs
    | none =>
      if t.combiningClass c = 0 then starter :: marks ++ composeFrom c [] cs
      else composeFrom starter (marks ++ [c]) cs

def composeAll : List α → List α
  | [] => []
  | c :: cs => if t.combiningClass c = 0 then t.composeFrom c [] cs else c :: composeAll cs

/-- The normalization form C. -/
def nfc (text : List α) : List α := t.composeAll (t.reorder (text.flatMap t.decompose))

/-- Blanks are starters, decompose to blanks, and compose with nothing. -/
structure Inert (isBlank : α → Bool) : Prop where
  starter : ∀ c, isBlank c = true → t.combiningClass c = 0
  decompose_ne_nil : ∀ c, t.decompose c ≠ []
  decompose_eq : ∀ c, ∀ d ∈ t.decompose c, isBlank d = isBlank c
  compose : ∀ c d e, t.compose c d = some e →
    isBlank c = false ∧ isBlank d = false ∧ isBlank e = false

variable {t} {isBlank : α → Bool}

/-! ### Order -/

theorem place_append_cons {b : α} (hb : t.combiningClass b = 0) (c : α) (text rest : List α) :
    t.place c (text ++ b :: rest) = t.place c text ++ b :: rest := by
  induction text with
  | nil =>
    have hplace : t.place c (b :: rest) = c :: b :: rest := by rw [place, if_neg (by omega)]
    exact hplace
  | cons d ds ih =>
    rw [List.cons_append, place, place]
    split
    · rw [ih, List.cons_append]
    · rfl

theorem reorder_append_cons {b : α} (hb : t.combiningClass b = 0) (text rest : List α) :
    t.reorder (text ++ b :: rest) = t.reorder text ++ b :: t.reorder rest := by
  induction text with
  | nil =>
    -- nothing moves a starter
    rw [List.nil_append, reorder, List.foldr_cons]
    show t.place b (t.reorder rest) = _
    cases hrest : t.reorder rest with
    | nil => rfl
    | cons d ds =>
      rw [place, if_neg (by omega)]
      rfl
  | cons c text ih =>
    show t.place c (t.reorder (text ++ b :: rest)) = t.place c (t.reorder text) ++ _
    rw [ih, place_append_cons hb]

theorem mem_place {c d : α} {text : List α} : d ∈ t.place c text ↔ d = c ∨ d ∈ text := by
  induction text with
  | nil => simp [place]
  | cons e es ih =>
    rw [place]
    split
    · rw [List.mem_cons, ih, List.mem_cons]
      tauto
    · rw [List.mem_cons]

theorem mem_reorder {d : α} {text : List α} : d ∈ t.reorder text ↔ d ∈ text := by
  induction text with
  | nil => rfl
  | cons c text ih =>
    show d ∈ t.place c (t.reorder text) ↔ _
    rw [mem_place, ih, List.mem_cons]

/-! ### Composition -/

section Inert

variable (ht : t.Inert isBlank)
include ht

/-- What follows a blank is composed on its own. -/
theorem composeFrom_blank {b : α} (hb : isBlank b = true) (marks text : List α) :
    t.composeFrom b marks text = b :: marks ++ t.composeAll text := by
  induction text generalizing marks with
  | nil => simp [composeFrom, composeAll]
  | cons c cs ih =>
    -- a blank composes with nothing
    have hnone : t.compose b c = none := by
      cases h : t.compose b c with
      | none => rfl
      | some e =>
        rw [(ht.compose b c e h).1] at hb
        cases hb
    rw [composeFrom, composeAll, hnone, ite_self]
    by_cases hc : t.combiningClass c = 0
    · simp only [if_pos hc]
    · simp only [if_neg hc]
      rw [ih]
      simp

/-- A blank ends what is composed before it. -/
theorem composeFrom_append_cons {b : α} (hb : isBlank b = true) (starter : α)
    (marks text rest : List α) :
    t.composeFrom starter marks (text ++ b :: rest)
      = t.composeFrom starter marks text ++ b :: t.composeAll rest := by
  induction text generalizing starter marks with
  | nil =>
    -- nothing composes with a blank
    have hnone : t.compose starter b = none := by
      cases h : t.compose starter b with
      | none => rfl
      | some e =>
        rw [(ht.compose starter b e h).2.1] at hb
        cases hb
    rw [List.nil_append, composeFrom, composeFrom, hnone, ite_self]
    simp only [if_pos (ht.starter b hb)]
    rw [composeFrom_blank ht hb]
    rfl
  | cons c cs ih =>
    rw [List.cons_append, composeFrom, composeFrom]
    cases (if t.blocked marks c then none else t.compose starter c) with
    | some composite => exact ih composite marks
    | none =>
      by_cases hc : t.combiningClass c = 0
      · simp only [if_pos hc]
        rw [ih, List.append_assoc]
      · simp only [if_neg hc]
        exact ih starter (marks ++ [c])

theorem composeAll_append_cons {b : α} (hb : isBlank b = true) (text rest : List α) :
    t.composeAll (text ++ b :: rest) = t.composeAll text ++ b :: t.composeAll rest := by
  induction text with
  | nil =>
    have hblank : t.composeAll (b :: rest) = b :: t.composeAll rest := by
      rw [composeAll, if_pos (ht.starter b hb), composeFrom_blank ht hb]
      rfl
    exact hblank
  | cons c cs ih =>
    rw [List.cons_append, composeAll, composeAll]
    split
    · exact composeFrom_append_cons ht hb c [] cs rest
    · rw [ih, List.cons_append]

/-! ### Texts without blanks -/

theorem composeFrom_plain {starter : α} {marks text : List α} (hstarter : isBlank starter = false)
    (hmarks : ∀ m ∈ marks, isBlank m = false) (htext : ∀ c ∈ text, isBlank c = false) :
    ∀ d ∈ t.composeFrom starter marks text, isBlank d = false := by
  induction text generalizing starter marks with
  | nil =>
    intro d hd
    rcases List.mem_cons.mp hd with rfl | hd
    · exact hstarter
    · exact hmarks d hd
  | cons c cs ih =>
    obtain ⟨hc, hcs⟩ := List.forall_mem_cons.mp htext
    intro d hd
    rw [composeFrom] at hd
    cases hcompose : (if t.blocked marks c then none else t.compose starter c) with
    | some composite =>
      rw [hcompose] at hd
      -- what is composed is no blank
      have hcomposite : isBlank composite = false := by
        split at hcompose
        · cases hcompose
        · exact (ht.compose _ _ _ hcompose).2.2
      exact ih hcomposite hmarks hcs d hd
    | none =>
      rw [hcompose] at hd
      by_cases hclass : t.combiningClass c = 0
      · simp only [if_pos hclass] at hd
        rcases List.mem_append.mp hd with hd | hd
        · rcases List.mem_cons.mp hd with rfl | hd
          · exact hstarter
          · exact hmarks d hd
        · exact ih hc (by simp) hcs d hd
      · simp only [if_neg hclass] at hd
        -- the character joins the marks
        refine ih hstarter ?_ hcs d hd
        intro m hm
        rcases List.mem_append.mp hm with hm | hm
        · exact hmarks m hm
        · rw [List.mem_singleton.mp hm]
          exact hc

theorem composeAll_plain {text : List α} (htext : ∀ c ∈ text, isBlank c = false) :
    ∀ d ∈ t.composeAll text, isBlank d = false := by
  induction text with
  | nil => simp [composeAll]
  | cons c cs ih =>
    obtain ⟨hc, hcs⟩ := List.forall_mem_cons.mp htext
    rw [composeAll]
    split
    · exact composeFrom_plain ht hc (by simp) hcs
    · intro d hd
      rcases List.mem_cons.mp hd with rfl | hd
      · exact hc
      · exact ih hcs d hd

theorem nfc_plain {text : List α} (htext : ∀ c ∈ text, isBlank c = false) :
    ∀ d ∈ t.nfc text, isBlank d = false := by
  apply composeAll_plain ht
  intro d hd
  obtain ⟨c, hc, hd⟩ := List.mem_flatMap.mp (mem_reorder.mp hd)
  rw [ht.decompose_eq c d hd]
  exact htext c hc

omit ht in
theorem composeFrom_ne_nil (starter : α) (marks text : List α) :
    t.composeFrom starter marks text ≠ [] := by
  induction text generalizing starter marks with
  | nil => simp [composeFrom]
  | cons c cs ih =>
    rw [composeFrom]
    split
    · exact ih _ _
    · split
      · simp
      · exact ih _ _

theorem nfc_ne_nil {text : List α} (htext : text ≠ []) : t.nfc text ≠ [] := by
  obtain ⟨c, cs, rfl⟩ := List.exists_cons_of_ne_nil htext
  obtain ⟨d, ds, hd⟩ := List.exists_cons_of_ne_nil (ht.decompose_ne_nil c)
  have hmem : d ∈ t.reorder ((c :: cs).flatMap t.decompose) := by
    rw [mem_reorder, List.flatMap_cons, hd]
    exact List.mem_append_left _ List.mem_cons_self
  obtain ⟨e, es, he⟩ := List.exists_cons_of_ne_nil (List.ne_nil_of_mem hmem)
  rw [nfc, he, composeAll]
  split
  · exact composeFrom_ne_nil e [] es
  · simp

/-! ### Blanks and words -/

/-- **A blank cuts the normal form** of a text. -/
theorem nfc_append_cons {b : α} (hb : isBlank b = true) (text rest : List α) :
    t.nfc (text ++ b :: rest) = t.nfc text ++ t.decompose b ++ t.nfc rest := by
  have hblanks : ∀ d ∈ t.decompose b, isBlank d = true := fun d hd => by
    rw [ht.decompose_eq b d hd, hb]
  -- each blank of the decomposition is a starter, and cuts the text where it stands
  have hcut : ∀ bs : List α, (∀ d ∈ bs, isBlank d = true) → ∀ x y : List α,
      bs ≠ [] → t.composeAll (t.reorder (x ++ bs ++ y))
        = t.composeAll (t.reorder x) ++ bs ++ t.composeAll (t.reorder y) := by
    intro bs hbs x y hne
    induction bs generalizing x with
    | nil => exact absurd rfl hne
    | cons d ds ih =>
      obtain ⟨hd, hds⟩ := List.forall_mem_cons.mp hbs
      rw [List.append_assoc, List.cons_append, reorder_append_cons (ht.starter d hd),
        composeAll_append_cons ht hd]
      cases ds with
      | nil => simp
      | cons d' ds =>
        have hrest := ih hds [] (by simp)
        rw [List.nil_append] at hrest
        rw [hrest]
        simp [reorder, composeAll]
  rw [nfc, List.flatMap_append, List.flatMap_cons, ← List.append_assoc,
    hcut _ hblanks _ _ (ht.decompose_ne_nil b)]
  rfl

/-- **The words of a normal form** are the normal forms of the words. -/
theorem words_nfc (text : List α) :
    words isBlank (t.nfc text) = (words isBlank text).map t.nfc := by
  have hplain : ∀ w : List α, (∀ c ∈ w, isBlank c = false) →
      words isBlank (t.nfc w) = (words isBlank w).map t.nfc := by
    intro w hw
    rw [words_of_plain (nfc_plain ht hw), words_of_plain hw]
    by_cases hne : w = []
    · subst hne
      rfl
    · rw [if_neg hne, if_neg (nfc_ne_nil ht hne)]
      rfl
  induction text using @blank_induction _ isBlank _ with
  | plain w hw => exact hplain w hw
  | cut w b rest hw hb ih =>
    have hblanks : ∀ d ∈ t.decompose b, isBlank d = true := fun d hd => by
      rw [ht.decompose_eq b d hd, hb]
    -- the blank and its decomposition both separate the words
    rw [nfc_append_cons ht hb, words_append_blanks (ht.decompose_ne_nil b) hblanks,
      words_append_cons hb, hplain w hw, ih, List.map_append]

end Inert

end Tables

end Oecophylla.Lib
