import Mathlib.Data.List.Basic
import Mathlib.Data.List.DropRight

namespace Oecophylla.Lib

/-!
# Words of a text

* `words` — the pieces between blanks; `unwords` — the words with one blank between them;
* `squeeze` — every run of blanks as one; `trim` — no blanks at the ends;
* `words_unwords` — words come back from their text;
* `trim_squeeze` — squeezing and trimming is taking the words.
-/

variable {α : Type*} {isBlank : α → Bool}

/-- A word of a text has a character, and no blank. -/
structure IsWord (isBlank : α → Bool) (w : List α) : Prop where
  ne_nil : w ≠ []
  not_blank : ∀ c ∈ w, isBlank c = false

def words (isBlank : α → Bool) (text : List α) : List (List α) :=
  (text.splitOnP isBlank).filter fun w => !w.isEmpty

def unwords (blank : α) (ws : List (List α)) : List α := [blank].intercalate ws

/-- Each run of blanks as one; `inside` says that the previous character was a blank. -/
def squeeze (isBlank : α → Bool) (blank : α) : (inside : Bool) → List α → List α
  | _, [] => []
  | inside, c :: cs =>
    if isBlank c then
      (if inside then squeeze isBlank blank true cs else blank :: squeeze isBlank blank true cs)
    else c :: squeeze isBlank blank false cs

def trim (isBlank : α → Bool) (text : List α) : List α :=
  (text.dropWhile isBlank).rdropWhile isBlank

/-- A text is a word, or none, up to its first blank. -/
theorem blank_induction {motive : List α → Prop}
    (plain : ∀ w, (∀ c ∈ w, isBlank c = false) → motive w)
    (cut : ∀ w c text, (∀ c ∈ w, isBlank c = false) → isBlank c = true → motive text →
      motive (w ++ c :: text)) (text : List α) : motive text := by
  have hall : ∀ w, (∀ c ∈ w, isBlank c = false) → motive (w ++ text) := by
    induction text with
    | nil =>
      intro w hw
      rw [List.append_nil]
      exact plain w hw
    | cons c text ih =>
      intro w hw
      by_cases hc : isBlank c = true
      · exact cut w c text hw hc (ih [] (by simp))
      · rw [List.append_cons]
        apply ih
        intro d hd
        rcases List.mem_append.mp hd with hd | hd
        · exact hw d hd
        · rw [List.mem_singleton.mp hd]
          simpa using hc
  exact hall [] (by simp)

/-! ### Words -/

theorem words_append_cons {c : α} (hc : isBlank c = true) (text rest : List α) :
    words isBlank (text ++ c :: rest) = words isBlank text ++ words isBlank rest := by
  rw [words, List.splitOnP_append_cons text rest hc, List.filter_append]
  rfl

theorem words_append_blanks {blanks : List α} (hne : blanks ≠ [])
    (hblanks : ∀ d ∈ blanks, isBlank d = true) (text rest : List α) :
    words isBlank (text ++ blanks ++ rest) = words isBlank text ++ words isBlank rest := by
  induction blanks generalizing text with
  | nil => exact absurd rfl hne
  | cons d ds ih =>
    obtain ⟨hd, hds⟩ := List.forall_mem_cons.mp hblanks
    -- the first blank ends the words before it; the others are before the rest
    rw [List.append_assoc, List.cons_append, words_append_cons hd]
    cases ds with
    | nil => rfl
    | cons d' ds =>
      have hrest := ih (by simp) hds []
      rw [List.nil_append] at hrest
      rw [hrest]
      rfl

theorem words_of_plain {w : List α} (hw : ∀ c ∈ w, isBlank c = false) :
    words isBlank w = if w = [] then [] else [w] := by
  rw [words, List.splitOnP_eq_singleton hw]
  cases w <;> rfl

theorem IsWord.words_eq {w : List α} (hw : IsWord isBlank w) : words isBlank w = [w] := by
  rw [words_of_plain hw.not_blank, if_neg hw.ne_nil]

theorem isWord_of_mem_words {text w : List α} (h : w ∈ words isBlank text) : IsWord isBlank w := by
  induction text using @blank_induction _ isBlank _ with
  | plain text htext =>
    rw [words_of_plain htext] at h
    split at h
    · cases h
    · rename_i hne
      rw [List.mem_singleton.mp h]
      exact ⟨hne, htext⟩
  | cut text c rest htext hc ih =>
    rw [words_append_cons hc, List.mem_append] at h
    rcases h with h | h
    · rw [words_of_plain htext] at h
      split at h
      · cases h
      · rename_i hne
        rw [List.mem_singleton.mp h]
        exact ⟨hne, htext⟩
    · exact ih h

theorem unwords_cons_cons (blank : α) (w v : List α) (ws : List (List α)) :
    unwords blank (w :: v :: ws) = w ++ blank :: unwords blank (v :: ws) := by
  rw [unwords, List.intercalate_cons_cons, List.append_assoc]
  rfl

theorem unwords_ne_nil (blank : α) {w : List α} (hw : w ≠ []) (ws : List (List α)) :
    unwords blank (w :: ws) ≠ [] := by
  cases ws with
  | nil =>
    rw [unwords, List.intercalate_singleton]
    exact hw
  | cons v ws =>
    rw [unwords_cons_cons]
    simp

/-- **Words come back from their text.** -/
theorem words_unwords {blank : α} (hblank : isBlank blank = true) {ws : List (List α)}
    (hws : ∀ w ∈ ws, IsWord isBlank w) : words isBlank (unwords blank ws) = ws := by
  induction ws with
  | nil => simp [words, unwords]
  | cons w ws ih =>
    have hw := (hws w List.mem_cons_self).words_eq
    cases ws with
    | nil => rw [unwords, List.intercalate_singleton, hw]
    | cons v ws =>
      rw [unwords_cons_cons, words_append_cons hblank, hw,
        ih fun x hx => hws x (List.mem_cons_of_mem w hx)]
      rfl

/-- The ends of a text of words are not blank. -/
theorem ends_unwords {blank : α} {ws : List (List α)} (hws : ∀ w ∈ ws, IsWord isBlank w) :
    (∀ c ∈ (unwords blank ws).head?, isBlank c = false)
      ∧ ∀ c ∈ (unwords blank ws).getLast?, isBlank c = false := by
  induction ws with
  | nil => simp [unwords]
  | cons w ws ih =>
    have hw := hws w List.mem_cons_self
    cases ws with
    | nil =>
      rw [unwords, List.intercalate_singleton]
      exact ⟨fun c hc => hw.not_blank c (List.mem_of_head? hc),
        fun c hc => hw.not_blank c (List.mem_of_getLast? hc)⟩
    | cons v ws =>
      obtain ⟨hfirst, hlast⟩ := ih fun x hx => hws x (List.mem_cons_of_mem w hx)
      rw [unwords_cons_cons]
      constructor
      · intro c hc
        -- the first character is that of the first word
        rw [List.head?_append_of_ne_nil _ hw.ne_nil] at hc
        exact hw.not_blank c (List.mem_of_head? hc)
      · intro c hc
        -- the last character is that of the rest, which is not empty
        have hv := hws v (List.mem_cons_of_mem w List.mem_cons_self)
        have hne : unwords blank (v :: ws) ≠ [] := unwords_ne_nil blank hv.ne_nil ws
        rw [List.getLast?_append_of_ne_nil _ (by simp), List.getLast?_cons_of_ne_nil hne] at hc
        exact hlast c hc

/-! ### Squeezing -/

theorem squeeze_append {blank : α} {w : List α} (hne : w ≠ []) (hw : ∀ c ∈ w, isBlank c = false)
    (inside : Bool) (rest : List α) :
    squeeze isBlank blank inside (w ++ rest) = w ++ squeeze isBlank blank false rest := by
  induction w generalizing inside with
  | nil => exact absurd rfl hne
  | cons c w ih =>
    have hc : isBlank c = false := hw c List.mem_cons_self
    rw [List.cons_append, squeeze, if_neg (by simp [hc])]
    cases w with
    | nil => rfl
    | cons d w =>
      rw [ih (by simp) fun x hx => hw x (List.mem_cons_of_mem c hx)]
      rfl

/-- After a blank, squeezing gives the words, and perhaps a blank at the end. -/
theorem squeeze_true (blank : α) (text : List α) :
    ∃ trail, (trail = [] ∨ trail = [blank]) ∧ (words isBlank text = [] → trail = [])
      ∧ squeeze isBlank blank true text = unwords blank (words isBlank text) ++ trail := by
  induction text using @blank_induction _ isBlank _ with
  | plain w hw =>
    refine ⟨[], .inl rfl, fun _ => rfl, ?_⟩
    by_cases hne : w = []
    · subst hne
      simp [squeeze, words, unwords]
    · have hsqueeze := @squeeze_append _ isBlank blank _ hne hw true []
      rw [List.append_nil] at hsqueeze
      rw [words_of_plain hw, if_neg hne, hsqueeze, unwords, List.intercalate_singleton]
      rfl
  | cut w c rest hw hc ih =>
    obtain ⟨trail, htrail, hnone, hsqueeze⟩ := ih
    rw [words_append_cons hc, words_of_plain hw]
    by_cases hne : w = []
    · subst hne
      -- a blank after a blank is left out
      refine ⟨trail, htrail, by simpa using hnone, ?_⟩
      rw [List.nil_append, squeeze, if_pos hc, if_pos rfl, hsqueeze]
      rfl
    · have hfirst : squeeze isBlank blank true (w ++ c :: rest)
          = w ++ blank :: (unwords blank (words isBlank rest) ++ trail) := by
        rw [squeeze_append hne hw, squeeze, if_pos hc, if_neg (by decide), hsqueeze]
      rw [if_neg hne, hfirst]
      cases hwords : words isBlank rest with
      | nil =>
        -- the blanks after the last word
        rw [hnone hwords]
        refine ⟨[blank], .inr rfl, by simp, ?_⟩
        simp [unwords]
      | cons v ws =>
        refine ⟨trail, htrail, by simp, ?_⟩
        rw [List.singleton_append, unwords_cons_cons, List.append_assoc, List.cons_append]

/-! ### Trimming -/

theorem trim_eq_of_ends {lead text trail : List α} (hlead : ∀ c ∈ lead, isBlank c = true)
    (htrail : ∀ c ∈ trail, isBlank c = true) (hfirst : ∀ c ∈ text.head?, isBlank c = false)
    (hlast : ∀ c ∈ text.getLast?, isBlank c = false) :
    trim isBlank (lead ++ (text ++ trail)) = text := by
  rw [trim, List.dropWhile_append_of_pos hlead]
  cases text with
  | nil =>
    rw [List.nil_append, List.dropWhile_eq_nil_iff.mpr htrail]
    rfl
  | cons c text =>
    have hc : isBlank c = false := hfirst c rfl
    have hdrop : ((c :: text) ++ trail).dropWhile isBlank = (c :: text) ++ trail := by
      rw [List.cons_append, List.dropWhile_cons, if_neg (by simp [hc])]
    have hreverse : ∀ d ∈ trail.reverse, isBlank d = true :=
      fun d hd => htrail d (List.mem_reverse.mp hd)
    rw [hdrop, List.rdropWhile, List.reverse_append, List.dropWhile_append_of_pos hreverse]
    apply List.rdropWhile_eq_self_iff.mpr
    intro hne
    have hend := hlast _ (List.getLast?_eq_getLast_of_ne_nil hne)
    simpa using hend

/-- **Squeezing and trimming is taking the words.** -/
theorem trim_squeeze {blank : α} (hblank : isBlank blank = true) (text : List α) :
    trim isBlank (squeeze isBlank blank false text) = unwords blank (words isBlank text) := by
  obtain ⟨hfirst, hlast⟩ := @ends_unwords _ isBlank blank (words isBlank text)
    (fun w hw => isWord_of_mem_words hw)
  have hlead : ∃ lead : List α, (∀ c ∈ lead, isBlank c = true)
      ∧ squeeze isBlank blank false text = lead ++ squeeze isBlank blank true text := by
    cases text with
    | nil => exact ⟨[], by simp, rfl⟩
    | cons c cs =>
      by_cases hc : isBlank c = true
      · -- the first blank is kept, and then the text is as after a blank
        refine ⟨[blank], by simpa using hblank, ?_⟩
        rw [squeeze, squeeze, if_pos hc, if_pos hc, if_neg (by decide), if_pos rfl]
        rfl
      · refine ⟨[], by simp, ?_⟩
        rw [squeeze, squeeze, if_neg hc, if_neg hc]
        rfl
  obtain ⟨lead, hlead, hsqueeze⟩ := hlead
  obtain ⟨trail, htrail, -, hwords⟩ := @squeeze_true _ isBlank blank text
  -- trimming takes away the blanks that squeezing left at the ends
  rw [hsqueeze, hwords]
  apply trim_eq_of_ends hlead _ hfirst hlast
  rcases htrail with rfl | rfl
  · simp
  · simpa using hblank

/-- Squeezing leaves single blanks alone. -/
theorem squeeze_unwords (blank : α) {ws : List (List α)} (hws : ∀ w ∈ ws, IsWord isBlank w)
    (inside : Bool) : squeeze isBlank blank inside (unwords blank ws) = unwords blank ws := by
  induction ws generalizing inside with
  | nil => cases inside <;> rfl
  | cons w ws ih =>
    have hw := hws w List.mem_cons_self
    have hrest := ih fun x hx => hws x (List.mem_cons_of_mem w hx)
    cases ws with
    | nil =>
      have hsqueeze := @squeeze_append _ isBlank blank _ hw.ne_nil hw.not_blank inside []
      rw [List.append_nil] at hsqueeze
      rw [unwords, List.intercalate_singleton, hsqueeze, squeeze, List.append_nil]
    | cons v ws =>
      rw [unwords_cons_cons, squeeze_append hw.ne_nil hw.not_blank, squeeze, hrest true,
        hrest false]
      simp

/-! ### Replacing characters -/

/-- A text for a character: a blank stays, and another becomes a text without blanks. -/
structure Replaces (isBlank : α → Bool) (c : α) (piece : List α) : Prop where
  blank : isBlank c = true → piece = [c]
  plain : isBlank c = false → IsWord isBlank piece

/-- A text, with a text for each of its characters. -/
def Replaced (isBlank : α → Bool) (text result : List α) : Prop :=
  ∃ rows : List (α × List α), rows.map Prod.fst = text ∧ rows.flatMap Prod.snd = result
    ∧ ∀ r ∈ rows, Replaces isBlank r.1 r.2

theorem IsWord.replaced {w result : List α} (hw : IsWord isBlank w)
    (h : Replaced isBlank w result) : IsWord isBlank result := by
  obtain ⟨rows, rfl, rfl, hrows⟩ := h
  have hplain : ∀ r ∈ rows, IsWord isBlank r.2 := fun r hr =>
    (hrows r hr).plain (hw.not_blank r.1 (List.mem_map_of_mem hr))
  refine ⟨?_, ?_⟩
  · have hne : rows ≠ [] := by
      rintro rfl
      exact hw.ne_nil rfl
    obtain ⟨r, rows, rfl⟩ := List.exists_cons_of_ne_nil hne
    have hr := (hplain r List.mem_cons_self).ne_nil
    simp [hr]
  · intro c hc
    obtain ⟨r, hr, hc⟩ := List.mem_flatMap.mp hc
    exact (hplain r hr).not_blank c hc

/-- A text of words with its characters replaced is a text of words. -/
theorem exists_unwords_of_replaced {blank : α} (hblank : isBlank blank = true)
    {ws : List (List α)} (hws : ∀ w ∈ ws, IsWord isBlank w) {result : List α}
    (h : Replaced isBlank (unwords blank ws) result) :
    ∃ ws', ws'.length = ws.length ∧ (∀ w ∈ ws', IsWord isBlank w)
      ∧ result = unwords blank ws' := by
  induction ws generalizing result with
  | nil =>
    obtain ⟨rows, htext, rfl, -⟩ := h
    obtain rfl := List.map_eq_nil_iff.mp htext
    exact ⟨[], rfl, by simp, rfl⟩
  | cons w ws ih =>
    have hw := hws w List.mem_cons_self
    cases ws with
    | nil =>
      rw [unwords, List.intercalate_singleton] at h
      refine ⟨[result], rfl, by simpa using hw.replaced h, ?_⟩
      rw [unwords, List.intercalate_singleton]
    | cons v ws =>
      obtain ⟨rows, htext, rfl, hrows⟩ := h
      rw [unwords_cons_cons] at htext
      -- the rows of the first word, of the blank and of the others
      obtain ⟨first, rest, rfl, hfirst, hrest⟩ := List.map_eq_append_iff.mp htext
      obtain ⟨r, rest, rfl, hr, hrest⟩ := List.map_eq_cons_iff.mp hrest
      have hword : IsWord isBlank (first.flatMap Prod.snd) :=
        hw.replaced ⟨first, hfirst, rfl, fun x hx => hrows x (List.mem_append_left _ hx)⟩
      obtain ⟨ws', hlength, hws', htail⟩ := ih (fun x hx => hws x (List.mem_cons_of_mem w hx))
        ⟨rest, hrest, rfl, fun x hx =>
          hrows x (List.mem_append_right _ (List.mem_cons_of_mem r hx))⟩
      -- the blank between the words stays
      have hkept : r.2 = [blank] := by
        have hreplaces := hrows r (List.mem_append_right _ List.mem_cons_self)
        rw [hreplaces.blank (by rw [hr, hblank]), hr]
      obtain ⟨v', vs, rfl⟩ := List.exists_cons_of_length_eq_add_one hlength
      refine ⟨first.flatMap Prod.snd :: v' :: vs, by simpa using hlength, ?_, ?_⟩
      · intro x hx
        rcases List.mem_cons.mp hx with rfl | hx
        · exact hword
        · exact hws' x hx
      · rw [List.flatMap_append, List.flatMap_cons, hkept, htail, unwords_cons_cons]
        rfl

end Oecophylla.Lib
