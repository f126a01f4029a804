import Oecophylla.Lib.StableSort
import Mathlib.Data.Option.Basic
import Mathlib.Order.Basic

namespace Oecophylla.Lib

/-!
# Library — scanning a table by its keys

A table is read in the order of a key: a page has the first rows after a cursor, and the key of its
last row is the cursor of the next page.

* `After` — what lies after a cursor;
* `scanPage` — a page;
* `mem_scanPage_of_le` — a page leaves out no row between the cursor and its last row;
* `scanPage_eq_nil_iff` — there is no page left exactly when no row lies after the cursor;
* `scanLoop_eq` — visiting the rows page by page is visiting them in their order, also when the visits
  change what is stored beside the keys.
-/

variable {ρ κ : Type*} [LinearOrder κ] (key : ρ → κ)

/-- After the cursor; everything is, where there is none yet. -/
def After (cursor : Option κ) (k : κ) : Prop := ∀ c ∈ cursor, c < k

instance (cursor : Option κ) (k : κ) : Decidable (After cursor k) :=
  inferInstanceAs (Decidable (∀ _ ∈ cursor, _))

/-- The first rows after the cursor. -/
def scanPage (cursor : Option κ) (limit : Nat) (rows : List ρ) : List ρ :=
  (stableSort (compareBy compare key) (rows.filter fun r => After cursor (key r))).take limit

variable {key} {cursor : Option κ} {limit : Nat} {rows : List ρ} {r last : ρ}

@[simp] theorem after_none (k : κ) : After none k := nofun

theorem after_some {c k : κ} : After (some c) k ↔ c < k := by simp [After]

theorem After.mono {k k' : κ} (h : After cursor k) (hle : k ≤ k') : After cursor k' :=
  fun c hc => (h c hc).trans_le hle

/-- What is not after a cursor is at it or before it. -/
theorem not_after {k : κ} : ¬ After cursor k ↔ ∃ c ∈ cursor, k ≤ c := by
  unfold After
  push Not
  rfl

/-- A page has rows after the cursor. -/
theorem mem_scanPage (h : r ∈ scanPage key cursor limit rows) : r ∈ rows ∧ After cursor (key r) := by
  have hmem := List.mem_of_mem_take h
  rw [mem_stableSort, List.mem_filter, decide_eq_true_iff] at hmem
  exact hmem

theorem length_scanPage_le : (scanPage key cursor limit rows).length ≤ limit := by
  unfold scanPage
  rw [List.length_take]
  exact Nat.min_le_left _ _

/-- A page keeps the rows apart. -/
theorem nodup_map_scanPage {β : Type*} {f : ρ → β} (h : (rows.map f).Nodup) :
    ((scanPage key cursor limit rows).map f).Nodup := by
  have hfiltered : ((rows.filter fun r => After cursor (key r)).map f).Nodup :=
    h.sublist (List.filter_sublist.map f)
  have hsorted := ((stableSort_perm (compareBy compare key) _).map f).nodup_iff.mpr hfiltered
  exact hsorted.sublist ((List.take_sublist limit _).map f)

/-- **No gap.**  A page leaves out no row between the cursor and its last row. -/
theorem mem_scanPage_of_le (hkeys : (rows.map key).Nodup)
    (hlast : (scanPage key cursor limit rows).getLast? = some last) (hr : r ∈ rows)
    (hafter : After cursor (key r)) (hle : key r ≤ key last) : r ∈ scanPage key cursor limit rows := by
  have hlastMem : last ∈ scanPage key cursor limit rows := List.mem_of_getLast? hlast
  by_contra hout
  have hsorted := pairwise_stableSort (compareBy compare key)
    (rows.filter fun r => After cursor (key r))
  have hmem : r ∈ stableSort (compareBy compare key) (rows.filter fun r => After cursor (key r)) := by
    rw [mem_stableSort, List.mem_filter, decide_eq_true_iff]
    exact ⟨hr, hafter⟩
  -- a row that is left out is not before the last one
  rw [← List.take_append_drop limit (stableSort _ _), List.pairwise_append] at hsorted
  rw [← List.take_append_drop limit (stableSort _ _)] at hmem
  have hdrop := (List.mem_append.mp hmem).resolve_left hout
  have hge : key last ≤ key r := by
    have hisLE := hsorted.2.2 last hlastMem r hdrop
    exact compare_le_iff_le.mp (Ordering.isLE_iff_ne_gt.mp hisLE)
  have hsame : r = last :=
    List.inj_on_of_nodup_map hkeys hr (mem_scanPage hlastMem).1 (le_antisymm hle hge)
  exact hout (hsame ▸ hlastMem)

/-- The last row has the greatest key of the page. -/
theorem scanPage_le_last (hlast : (scanPage key cursor limit rows).getLast? = some last)
    (hr : r ∈ scanPage key cursor limit rows) : key r ≤ key last := by
  have hsorted : (scanPage key cursor limit rows).Pairwise fun a b => key a ≤ key b := by
    refine ((pairwise_stableSort (compareBy compare key) _).sublist (List.take_sublist _ _)).imp ?_
    intro a b hab
    exact compare_le_iff_le.mp (Ordering.isLE_iff_ne_gt.mp hab)
  obtain ⟨init, hinit⟩ := List.getLast?_eq_some_iff.mp hlast
  rw [hinit] at hsorted hr
  rcases List.mem_append.mp hr with hin | heq
  · exact (List.pairwise_append.mp hsorted).2.2 r hin last (List.mem_singleton_self last)
  · rw [List.mem_singleton.mp heq]

/-- **The end.**  There is no page left exactly when no row lies after the cursor. -/
theorem scanPage_eq_nil_iff (hlimit : 0 < limit) :
    scanPage key cursor limit rows = [] ↔ ∀ r ∈ rows, ¬ After cursor (key r) := by
  unfold scanPage
  rw [List.take_eq_nil_iff, or_iff_right (by omega), ← List.length_eq_zero_iff, length_stableSort,
    List.length_eq_zero_iff, List.filter_eq_nil_iff]
  simp

/-! ### Visiting the rows -/

section Visit

variable {σ ε : Type*} (visit : σ → ρ → Except ε σ)

/-- Visit the rows in order, and count the visits; an error leaves the state of its visit. -/
def visitAll : σ → List ρ → Nat → σ × Except ε Nat
  | s, [], count => (s, .ok count)
  | s, r :: rows, count =>
    match visit s r with
    | .error e => (s, .error e)
    | .ok t => visitAll t rows (count + 1)

variable {visit}

/-- What every visit preserves, visiting preserves. -/
theorem visitAll_invariant {P : σ → Prop} (hvisit : ∀ s r t, P s → visit s r = .ok t → P t) {s : σ}
    (hs : P s) (rows : List ρ) (count : Nat) : P (visitAll visit s rows count).1 := by
  induction rows generalizing s count with
  | nil => exact hs
  | cons r rows ih =>
    unfold visitAll
    split
    · exact hs
    · next t ht => exact ih (hvisit s r t hs ht) (count + 1)

/-- Visiting goes on after rows that are visited without an error. -/
theorem visitAll_append (s : σ) (l l' : List ρ) (count : Nat) :
    visitAll visit s (l ++ l') count
      = match visitAll visit s l count with
        | (t, .error e) => (t, .error e)
        | (t, .ok m) => visitAll visit t l' m := by
  induction l generalizing s count with
  | nil => rfl
  | cons r l ih =>
    rw [List.cons_append, visitAll, visitAll]
    cases visit s r with
    | error e => rfl
    | ok t => exact ih t (count + 1)

variable (key visit)

/-- Visit page after page; the rows are read anew for each page.  `none` when the fuel runs out. -/
def scanLoop (rows : σ → List ρ) (limit : Nat) : Nat → σ → Option κ → Nat → Option (σ × Except ε Nat)
  | 0, _, _, _ => none
  | fuel + 1, s, cursor, count =>
    match (scanPage key cursor limit (rows s)).getLast? with
    | none => some (s, .ok count)
    | some last =>
      match visitAll visit s (scanPage key cursor limit (rows s)) count with
      | (t, .error e) => some (t, .error e)
      | (t, .ok m) => scanLoop rows limit fuel t (some (key last)) m

variable {key visit}

/-- The rows after a cursor, in order. -/
def ordered (key : ρ → κ) (cursor : Option κ) (rows : List ρ) : List ρ :=
  stableSort (compareBy compare key) (rows.filter fun r => After cursor (key r))

theorem not_tied_of_nodup {l : List ρ} (h : (l.map key).Nodup) :
    l.Pairwise fun a b => compareBy compare key a b ≠ .eq := by
  refine (List.pairwise_map.mp h).imp fun {a b} hne heq => hne ?_
  exact Std.LawfulEqCmp.eq_of_compare heq

/-- The order of the table does not matter. -/
theorem ordered_eq_of_perm {rows' : List ρ} (hkeys : (rows.map key).Nodup) (hperm : rows.Perm rows') :
    ordered key cursor rows = ordered key cursor rows' := by
  refine stableSort_eq_of_perm (hperm.filter _) (not_tied_of_nodup ?_)
  exact hkeys.sublist (List.filter_sublist.map key)

/-- What comes after a page is what lies after its last row. -/
theorem drop_ordered (hkeys : (rows.map key).Nodup)
    (hlast : (scanPage key cursor limit rows).getLast? = some last) :
    (ordered key cursor rows).drop limit = ordered key (some (key last)) rows := by
  have hlastMem : last ∈ scanPage key cursor limit rows := List.mem_of_getLast? hlast
  have hafterLast := (mem_scanPage hlastMem).2
  have hpage : ∀ r ∈ (ordered key cursor rows).take limit, ¬ After (some (key last)) (key r) :=
    fun r hr => by
      rw [after_some, not_lt]
      exact scanPage_le_last hlast hr
  have hrest : ∀ r ∈ (ordered key cursor rows).drop limit, After (some (key last)) (key r) := by
    intro r hr
    rw [after_some]
    by_contra hle
    have hmem := mem_stableSort.mp (List.mem_of_mem_drop hr)
    rw [List.mem_filter, decide_eq_true_iff] at hmem
    have hin := mem_scanPage_of_le hkeys hlast hmem.1 hmem.2 (not_lt.mp hle)
    -- A row of the page does not come again.
    have hnodup : ((ordered key cursor rows).map key).Nodup :=
      ((stableSort_perm _ _).map key).nodup_iff.mpr (hkeys.sublist (List.filter_sublist.map key))
    rw [← List.take_append_drop limit (ordered key cursor rows), List.map_append] at hnodup
    exact List.disjoint_of_nodup_append hnodup (List.mem_map_of_mem hin) (List.mem_map_of_mem hr)
  have hboth : (ordered key cursor rows).filter (fun r => After (some (key last)) (key r))
      = ordered key (some (key last)) rows := by
    unfold ordered
    rw [filter_stableSort, List.filter_filter]
    congr 1
    refine List.filter_congr fun r _ => ?_
    rw [← Bool.decide_and, decide_eq_decide]
    exact and_iff_left_of_imp fun h => hafterLast.mono (after_some.mp h).le
  rw [← hboth]
  conv_rhs => rw [← List.take_append_drop limit (ordered key cursor rows)]
  rw [List.filter_append, List.filter_eq_nil_iff.mpr (by simpa using hpage), List.nil_append]
  exact (List.filter_eq_self.mpr (by simpa using hrest)).symm

/-- **One pass.**  Visiting page by page, the rows read anew for each page, is visiting the rows in
    their order, once each: as long as no visit changes which rows there are. -/
theorem scanLoop_eq {rows : σ → List ρ} (hlimit : 0 < limit) {P : σ → Prop}
    (hvisit : ∀ s r t, P s → visit s r = .ok t → P t ∧ (rows t).Perm (rows s))
    (hkeys : ∀ s, P s → ((rows s).map key).Nodup) {fuel : Nat} {s : σ} (hs : P s)
    (cursor : Option κ) (count : Nat) (hfuel : (ordered key cursor (rows s)).length < fuel) :
    scanLoop key visit rows limit fuel s cursor count
      = some (visitAll visit s (ordered key cursor (rows s)) count) := by
  induction fuel generalizing s cursor count with
  | zero => omega
  | succ fuel ih =>
    unfold scanLoop
    split
    · next hnone =>
      have hempty : ordered key cursor (rows s) = [] := by
        have htake := List.getLast?_eq_none_iff.mp hnone
        unfold scanPage at htake
        exact (List.take_eq_nil_iff.mp htake).resolve_left (by omega)
      rw [hempty]
      rfl
    · next last hlast =>
      have hsplit : ordered key cursor (rows s)
          = scanPage key cursor limit (rows s) ++ ordered key (some (key last)) (rows s) := by
        rw [← drop_ordered (hkeys s hs) hlast]
        exact (List.take_append_drop limit _).symm
      have hlength := congrArg List.length hsplit
      have hpos : 0 < (scanPage key cursor limit (rows s)).length :=
        List.length_pos_of_mem (List.mem_of_getLast? hlast)
      rw [List.length_append] at hlength
      have hafter : P (visitAll visit s (scanPage key cursor limit (rows s)) count).1
          ∧ (rows (visitAll visit s (scanPage key cursor limit (rows s)) count).1).Perm (rows s) := by
        refine visitAll_invariant (P := fun t => P t ∧ (rows t).Perm (rows s)) ?_ ⟨hs, .refl _⟩ _ _
        rintro u r t ⟨hu, hperm⟩ ht
        obtain ⟨ht, hperm'⟩ := hvisit u r t hu ht
        exact ⟨ht, hperm'.trans hperm⟩
      rw [hsplit, visitAll_append]
      split
      · rfl
      · next t m hvisited =>
        rw [hvisited] at hafter
        obtain ⟨ht, hperm⟩ := hafter
        have hsame : ordered key (some (key last)) (rows t) = ordered key (some (key last)) (rows s) :=
          ordered_eq_of_perm (hkeys t ht) hperm
        rw [ih ht (some (key last)) m (by rw [hsame]; omega), hsame]

end Visit

end Oecophylla.Lib
