import Mathlib.Data.List.Nodup
import Mathlib.Data.List.Induction

namespace Oecophylla.Lib

/-!
# Library — tables with a unique key

A table is a list of rows.  `insertNew` is `INSERT … ON CONFLICT (key) DO NOTHING`: a row whose
key is taken is skipped, also when an earlier row of the same statement took it.

* `insertAllNew_eq` — a statement appends the rows that `newRows` says it inserts;
* `mem_newRows_iff` — which rows these are; `newRows_of_nodup` when the keys are distinct;
* `nodup_insertAllNew` — the key stays unique;
* `filter_insertAllNew` / `filter_newRows` — a part of the table that shares no key with the
  rest only sees its own part of the statement;
* `filterMap_eq_iff` — what two lookups make of a table.
-/

variable {α κ : Type*} [DecidableEq κ] (key : α → κ)

/-- Some row of the table has the key. -/
def Taken (table : List α) (k : κ) : Prop := ∃ y ∈ table, key y = k

instance (table : List α) (k : κ) : Decidable (Taken key table k) :=
  inferInstanceAs (Decidable (∃ y ∈ table, key y = k))

/-- Insert a row unless its key is taken. -/
def insertNew (table : List α) (x : α) : List α :=
  if Taken key table (key x) then table else table ++ [x]

/-- Insert rows one after the other. -/
def insertAllNew (table rows : List α) : List α := rows.foldl (insertNew key) table

/-- The rows that a statement inserts. -/
def newRows : List α → List α → List α
  | _, [] => []
  | table, x :: rows =>
    if Taken key table (key x) then newRows table rows else x :: newRows (table ++ [x]) rows

variable {key} {table rows : List α}

omit [DecidableEq κ] in
theorem taken_append {l l' : List α} {k : κ} :
    Taken key (l ++ l') k ↔ Taken key l k ∨ Taken key l' k := by
  simp [Taken, or_and_right, exists_or]

omit [DecidableEq κ] in
theorem taken_singleton {x : α} {k : κ} : Taken key [x] k ↔ key x = k := by
  simp [Taken]

theorem insertAllNew_eq : insertAllNew key table rows = table ++ newRows key table rows := by
  induction rows generalizing table with
  | nil => simp [insertAllNew, newRows]
  | cons x rows ih =>
    rw [insertAllNew, List.foldl_cons]
    show insertAllNew key (insertNew key table x) rows = _
    unfold insertNew newRows
    split
    · exact ih
    · rw [ih, List.append_assoc, List.singleton_append]

theorem newRows_sublist : (newRows key table rows).Sublist rows := by
  induction rows generalizing table with
  | nil => exact List.Sublist.refl _
  | cons x rows ih =>
    unfold newRows
    split
    · exact ih.cons x
    · exact ih.cons_cons x

theorem newRows_subset : newRows key table rows ⊆ rows := newRows_sublist.subset

/-- The inserted rows had no taken key. -/
theorem not_taken_of_mem_newRows {x : α} (h : x ∈ newRows key table rows) :
    ¬ Taken key table (key x) := by
  induction rows generalizing table with
  | nil => simp [newRows] at h
  | cons y rows ih =>
    unfold newRows at h
    split at h
    · exact ih h
    · next hfree =>
      rcases List.mem_cons.mp h with rfl | h
      · exact hfree
      · exact fun htaken => ih h (taken_append.mpr (.inl htaken))

/-- **The rows that are inserted**: those whose key is free when their turn comes. -/
theorem mem_newRows_iff {x : α} :
    x ∈ newRows key table rows ↔ ¬ Taken key table (key x)
      ∧ ∃ before after, rows = before ++ x :: after ∧ ¬ Taken key before (key x) := by
  induction rows generalizing table with
  | nil => simp [newRows]
  | cons y rows ih =>
    unfold newRows
    split
    · next htaken =>
      rw [ih]
      apply and_congr_right
      intro hfree
      have hne : key y ≠ key x := fun heq => hfree (heq ▸ htaken)
      constructor
      · rintro ⟨before, after, rfl, hbefore⟩
        refine ⟨y :: before, after, rfl, ?_⟩
        rw [← List.singleton_append, taken_append, taken_singleton]
        exact not_or.mpr ⟨hne, hbefore⟩
      · rintro ⟨before, after, heq, hbefore⟩
        cases before with
        | nil => exact absurd (congrArg key (List.cons.inj heq).1) hne
        | cons z before =>
          obtain ⟨rfl, rfl⟩ := List.cons.inj heq
          refine ⟨before, after, rfl, fun htaken => hbefore ?_⟩
          rw [← List.singleton_append, taken_append]
          exact .inr htaken
    · next hfree =>
      rw [List.mem_cons, ih]
      constructor
      · rintro (rfl | ⟨hno, before, after, rfl, hbefore⟩)
        · exact ⟨hfree, [], rows, rfl, by simp [Taken]⟩
        · rw [taken_append, taken_singleton, not_or] at hno
          refine ⟨hno.1, y :: before, after, rfl, ?_⟩
          rw [← List.singleton_append, taken_append, taken_singleton]
          exact not_or.mpr ⟨hno.2, hbefore⟩
      · rintro ⟨hno, before, after, heq, hbefore⟩
        cases before with
        | nil => exact .inl (List.cons.inj heq).1.symm
        | cons z before =>
          obtain ⟨rfl, rfl⟩ := List.cons.inj heq
          rw [← List.singleton_append, taken_append, taken_singleton, not_or] at hbefore
          refine .inr ⟨?_, before, after, rfl, hbefore.2⟩
          rw [taken_append, taken_singleton]
          exact not_or.mpr ⟨hno, hbefore.1⟩

/-- The rows that are inserted into an empty table, of what some attempts give. -/
theorem mem_newRows_filterMap_iff {β : Type*} {g : β → Option α} {l : List β} {x : α} :
    x ∈ newRows key [] (l.filterMap g)
      ↔ ∃ before b after, l = before ++ b :: after ∧ g b = some x
        ∧ ∀ c ∈ before, ∀ y ∈ g c, key y ≠ key x := by
  have hfree : ∀ {l : List β}, ¬ Taken key (l.filterMap g) (key x)
      ↔ ∀ c ∈ l, ∀ y ∈ g c, key y ≠ key x := by
    intro l
    unfold Taken
    simp only [List.mem_filterMap, not_exists, not_and]
    exact ⟨fun h c hc y hy => h y ⟨c, hc, hy⟩, fun h y ⟨c, hc, hy⟩ => h c hc y hy⟩
  rw [mem_newRows_iff]
  constructor
  · rintro ⟨-, before, after, hrows, hbefore⟩
    obtain ⟨l₁, l₂, rfl, rfl, hl₂⟩ := List.filterMap_eq_append_iff.mp hrows
    obtain ⟨l₃, b, l₄, rfl, hnone, hb, -⟩ := List.filterMap_eq_cons_iff.mp hl₂
    refine ⟨l₁ ++ l₃, b, l₄, (List.append_assoc _ _ _).symm, hb, fun c hc => ?_⟩
    rcases List.mem_append.mp hc with hc | hc
    · exact hfree.mp hbefore c hc
    · rw [hnone c hc]
      nofun
  · rintro ⟨before, b, after, rfl, hb, hbefore⟩
    refine ⟨nofun, before.filterMap g, after.filterMap g, ?_, hfree.mpr hbefore⟩
    rw [List.filterMap_append, List.filterMap_cons_some hb]

/-- The row of a key is the first one that has it, unless the key is taken. -/
theorem find?_newRows (k : κ) :
    (newRows key table rows).find? (fun x => decide (key x = k))
      = if Taken key table k then none else rows.find? fun x => decide (key x = k) := by
  induction rows generalizing table with
  | nil => simp [newRows]
  | cons x rows ih =>
    unfold newRows
    by_cases hx : key x = k
    · subst hx
      by_cases htaken : Taken key table (key x)
      · rw [if_pos htaken, ih, if_pos htaken, if_pos htaken]
      · rw [if_neg htaken, if_neg htaken]
        simp
    · have hx' : ¬ decide (key x = k) = true := by simpa using hx
      have hsame : Taken key (table ++ [x]) k ↔ Taken key table k := by
        rw [taken_append, taken_singleton]
        simp [hx]
      have hskip : ∀ l : List α, (x :: l).find? (fun x => decide (key x = k))
          = l.find? fun x => decide (key x = k) := fun l => List.find?_cons_of_neg hx'
      split
      · rw [ih, hskip]
      · rw [hskip, hskip, ih]
        simp only [hsame]

/-- Rows with distinct keys: those are inserted whose key is free. -/
theorem newRows_of_nodup (hnodup : (rows.map key).Nodup) :
    newRows key table rows = rows.filter fun x => ¬ Taken key table (key x) := by
  induction rows generalizing table with
  | nil => rfl
  | cons x rows ih =>
    obtain ⟨hx, hrows⟩ := List.nodup_cons.mp hnodup
    unfold newRows
    by_cases htaken : Taken key table (key x)
    · rw [if_pos htaken, ih hrows, List.filter_cons_of_neg (by simpa using htaken)]
    · rw [if_neg htaken, ih hrows, List.filter_cons_of_pos (by simpa using htaken)]
      congr 1
      apply List.filter_congr
      intro y hy
      have hne : ¬ key x = key y := fun heq => hx (heq ▸ List.mem_map_of_mem hy)
      simp [taken_append, taken_singleton, hne]

theorem taken_insertAllNew {k : κ} :
    Taken key (insertAllNew key table rows) k ↔ Taken key table k ∨ Taken key rows k := by
  induction rows generalizing table with
  | nil => simp [insertAllNew, Taken]
  | cons x rows ih =>
    rw [insertAllNew, List.foldl_cons]
    show Taken key (insertAllNew key (insertNew key table x) rows) k ↔ _
    rw [ih, ← List.singleton_append, taken_append, taken_singleton, ← or_assoc]
    apply or_congr_left
    unfold insertNew
    split
    · next htaken =>
      constructor
      · exact .inl
      · rintro (h | rfl)
        · exact h
        · exact htaken
    · rw [taken_append, taken_singleton]

/-- The key stays unique. -/
theorem nodup_insertAllNew (h : (table.map key).Nodup) :
    ((insertAllNew key table rows).map key).Nodup := by
  induction rows generalizing table with
  | nil => exact h
  | cons x rows ih =>
    rw [insertAllNew, List.foldl_cons]
    apply ih
    unfold insertNew
    split
    · exact h
    · next hfree =>
      rw [List.map_append, List.nodup_append]
      refine ⟨h, List.nodup_singleton _, ?_⟩
      intro k hk k' hk' heq
      obtain ⟨y, hy, rfl⟩ := List.mem_map.mp hk
      rw [List.map_singleton, List.mem_singleton] at hk'
      exact hfree ⟨y, hy, heq.trans hk'⟩

/-- The rows that are inserted have distinct keys. -/
theorem nodup_newRows : ((newRows key table rows).map key).Nodup := by
  induction rows generalizing table with
  | nil => exact List.nodup_nil
  | cons x rows ih =>
    unfold newRows
    split
    · exact ih
    · rw [List.map_cons, List.nodup_cons]
      refine ⟨fun hmem => ?_, ih⟩
      obtain ⟨y, hy, heq⟩ := List.mem_map.mp hmem
      exact not_taken_of_mem_newRows hy (taken_append.mpr (.inr (taken_singleton.mpr heq.symm)))

/-- The key of a row picks out the row. -/
theorem filter_key_of_mem (hnodup : (rows.map key).Nodup) {x : α} (hx : x ∈ rows) :
    rows.filter (fun y => key y = key x) = [x] := by
  induction rows with
  | nil => contradiction
  | cons y rows ih =>
    obtain ⟨hy, hrows⟩ := List.nodup_cons.mp hnodup
    rcases List.mem_cons.mp hx with rfl | hx
    · have hnone : rows.filter (fun y => decide (key y = key x)) = [] := by
        apply List.filter_eq_nil_iff.mpr
        intro z hz heq
        exact hy (of_decide_eq_true heq ▸ List.mem_map_of_mem hz)
      rw [List.filter_cons_of_pos (by simp), hnone]
    · have hne : ¬ key y = key x := fun heq => hy (heq ▸ List.mem_map_of_mem hx)
      rw [List.filter_cons_of_neg (by simpa using hne), ih hrows hx]

/-- Inserting rows of another type, which have the keys of their images. -/
theorem newRows_map {β : Type*} (g : β → α) (table l : List β) :
    newRows key (table.map g) (l.map g) = (newRows (fun b => key (g b)) table l).map g := by
  induction l generalizing table with
  | nil => rfl
  | cons b l ih =>
    have htaken : Taken key (table.map g) (key (g b)) ↔ Taken (fun b => key (g b)) table (key (g b)) := by
      simp [Taken]
    rw [List.map_cons, newRows, newRows]
    by_cases h : Taken (fun b => key (g b)) table (key (g b))
    · rw [if_pos (htaken.mpr h), if_pos h, ih]
    · rw [if_neg (fun h' => h (htaken.mp h')), if_neg h, List.map_cons, ← ih, List.map_append,
        List.map_singleton]

/-- **Separate parts.**  When no row outside of a part has in the end the key of a row of the
    part, the part develops as if the outside did not exist. -/
theorem filter_insertAllNew {p : α → Bool}
    (hsep : ∀ x ∈ insertAllNew key table rows, p x = false →
      ∀ y ∈ rows, p y = true → key x ≠ key y) :
    (insertAllNew key table rows).filter p
      = insertAllNew key (table.filter p) (rows.filter p) := by
  induction rows generalizing table with
  | nil => rfl
  | cons x rows ih =>
    have hsub : table ⊆ insertAllNew key table (x :: rows) := by
      rw [insertAllNew_eq]
      exact List.subset_append_left _ _
    rw [insertAllNew, List.foldl_cons] at hsep ⊢
    have hrest : (insertAllNew key (insertNew key table x) rows).filter p
        = insertAllNew key ((insertNew key table x).filter p) (rows.filter p) :=
      ih fun y hy hpy z hz => hsep y hy hpy z (List.mem_cons_of_mem x hz)
    show (insertAllNew key (insertNew key table x) rows).filter p = _
    rw [hrest]
    by_cases hx : p x = true
    · -- a row of the part: it is skipped in the part exactly when it is skipped in the table
      rw [List.filter_cons_of_pos hx, insertAllNew, insertAllNew, List.foldl_cons]
      congr 1
      have htaken : Taken key table (key x) ↔ Taken key (table.filter p) (key x) := by
        constructor
        · rintro ⟨y, hy, hyx⟩
          refine ⟨y, List.mem_filter.mpr ⟨hy, ?_⟩, hyx⟩
          by_contra hno
          exact hsep y (hsub hy) (by simpa using hno) x List.mem_cons_self hx hyx
        · rintro ⟨y, hy, hyx⟩
          exact ⟨y, (List.mem_filter.mp hy).1, hyx⟩
      unfold insertNew
      by_cases h : Taken key table (key x)
      · rw [if_pos h, if_pos (htaken.mp h)]
      · rw [if_neg h, if_neg fun h' => h (htaken.mpr h'), List.filter_append]
        simp [hx]
    · rw [List.filter_cons_of_neg hx]
      congr 1
      unfold insertNew
      split
      · rfl
      · rw [List.filter_append]
        simp [hx]

/-- **Separate parts that are judged.**  Of the rows of a part only those matter that meet `q`:
    when their keys are not taken and no inserted row outside of the part has them, the same ones
    are inserted as if the outside did not exist. -/
theorem filter_newRows {part : List α} {p q : α → Bool}
    (hpart : ∀ k, Taken key part k → Taken key table k)
    (hsep : ∀ y ∈ newRows key part (rows.filter p), q y = true → ¬ Taken key table (key y)
      ∧ ∀ x ∈ newRows key table rows, p x = false → key x ≠ key y) :
    (newRows key table rows).filter (fun x => p x && q x)
      = (newRows key part (rows.filter p)).filter q := by
  induction rows generalizing table part with
  | nil => rfl
  | cons x rows ih =>
    by_cases hx : p x = true
    · rw [List.filter_cons_of_pos hx] at hsep ⊢
      by_cases hpartTaken : Taken key part (key x)
      · -- skipped on both sides
        have htaken := hpart _ hpartTaken
        rw [newRows, if_pos hpartTaken] at hsep
        rw [newRows, if_pos htaken, newRows, if_pos hpartTaken]
        refine ih hpart fun y hy hq => ?_
        obtain ⟨hfree, hother⟩ := hsep y hy hq
        rw [newRows, if_pos htaken] at hother
        exact ⟨hfree, hother⟩
      · rw [newRows, if_neg hpartTaken] at hsep
        rw [newRows.eq_def key part, newRows.eq_def key table]
        dsimp only
        rw [if_neg hpartTaken]
        by_cases htaken : Taken key table (key x)
        · -- somebody else has the key, so that the row does not count
          have hq : ¬ q x = true := fun hq => (hsep x List.mem_cons_self hq).1 htaken
          rw [if_pos htaken, List.filter_cons_of_neg hq]
          refine ih (fun k hk => ?_) fun y hy hq => ?_
          · rcases taken_append.mp hk with hk | hk
            · exact hpart k hk
            · exact taken_singleton.mp hk ▸ htaken
          · obtain ⟨hfree, hother⟩ := hsep y (List.mem_cons_of_mem x hy) hq
            rw [newRows, if_pos htaken] at hother
            exact ⟨hfree, hother⟩
        · rw [if_neg htaken]
          have hrest : (newRows key (table ++ [x]) rows).filter (fun x => p x && q x)
              = (newRows key (part ++ [x]) (rows.filter p)).filter q := by
            refine ih (fun k hk => ?_) fun y hy hq => ?_
            · exact taken_append.mpr ((taken_append.mp hk).imp_left (hpart k))
            · obtain ⟨hfree, hother⟩ := hsep y (List.mem_cons_of_mem x hy) hq
              rw [newRows, if_neg htaken] at hother
              refine ⟨fun h => ?_, fun z hz => hother z (List.mem_cons_of_mem x hz)⟩
              rcases taken_append.mp h with h | h
              · exact hfree h
              · exact not_taken_of_mem_newRows hy (taken_append.mpr (.inr h))
          simp only [List.filter_cons, hx, Bool.true_and, hrest]
    · rw [List.filter_cons_of_neg hx] at hsep ⊢
      have hx' : p x = false := by simpa using hx
      by_cases htaken : Taken key table (key x)
      · rw [newRows, if_pos htaken] at hsep ⊢
        exact ih hpart hsep
      · rw [newRows, if_neg htaken] at hsep ⊢
        rw [List.filter_cons_of_neg (by simp [hx'])]
        refine ih (fun k hk => taken_append.mpr (.inl (hpart k hk))) fun y hy hq => ?_
        obtain ⟨hfree, hother⟩ := hsep y hy hq
        refine ⟨fun h => ?_, fun z hz => hother z (List.mem_cons_of_mem x hz)⟩
        rcases taken_append.mp h with h | h
        · exact hfree h
        · exact hother x List.mem_cons_self hx' (taken_singleton.mp h)

/-! ### Lookups -/

omit [DecidableEq κ] in
/-- Partial maps with keys: they give the same list exactly when they agree on every entry. -/
theorem filterMap_eq_iff {β : Type*} {f g : α → Option β} {keyOf : β → κ}
    (hf : ∀ a b, f a = some b → keyOf b = key a) (hg : ∀ a b, g a = some b → keyOf b = key a)
    {l : List α} (hnodup : (l.map key).Nodup) :
    l.filterMap f = l.filterMap g ↔ ∀ a ∈ l, f a = g a := by
  refine ⟨fun h => ?_, fun h => List.filterMap_congr h⟩
  induction l with
  | nil => simp
  | cons a l ih =>
    rw [List.map_cons, List.nodup_cons] at hnodup
    -- an entry for `a` does not come from the rest
    have hfresh : ∀ h : α → Option β, (∀ a b, h a = some b → keyOf b = key a) →
        ∀ b ∈ l.filterMap h, keyOf b ≠ key a := by
      intro h hkey b hb heq
      obtain ⟨c, hc, hcb⟩ := List.mem_filterMap.mp hb
      exact hnodup.1 (heq ▸ hkey c b hcb ▸ List.mem_map_of_mem hc)
    rw [List.filterMap_cons, List.filterMap_cons] at h
    cases hfa : f a with
    | none =>
      cases hga : g a with
      | none =>
        rw [hfa, hga] at h
        exact List.forall_mem_cons.mpr ⟨hfa.trans hga.symm, ih hnodup.2 h⟩
      | some b =>
        rw [hfa, hga] at h
        dsimp only at h
        exact absurd (hg a b hga) (hfresh f hf b (h ▸ List.mem_cons_self))
    | some b =>
      cases hga : g a with
      | none =>
        rw [hfa, hga] at h
        dsimp only at h
        exact absurd (hf a b hfa) (hfresh g hg b (h ▸ List.mem_cons_self))
      | some c =>
        rw [hfa, hga] at h
        obtain ⟨rfl, hrest⟩ := List.cons.inj h
        exact List.forall_mem_cons.mpr ⟨hfa.trans hga.symm, ih hnodup.2 hrest⟩

end Oecophylla.Lib
