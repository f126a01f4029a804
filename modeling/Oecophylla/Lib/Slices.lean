import Mathlib.Data.Prod.Lex
import Oecophylla.Lib.Paging

namespace Oecophylla.Lib

/-!
# Library — paging through a fixed sequence

A reader who follows the cursors of a service through a sequence that has no ties, so that every
page is a slice of it.

* `Enumerates` — every reader comes to an end and has read exactly the sequence, in its order;
* `Slices` — each cursor leaves a state, and a page takes its rows off what that state shows;
* `OrderedKeyset` — a service that orders by a key and takes the key of the last row as its cursor.
-/

section Slices

variable {γ ρ σ : Type*}

/-- Following the cursors from the first page comes to an end, never goes on for ever, and shows the
    rows in their order. -/
structure Enumerates (respond : Option γ → List ρ → Option γ → Prop) (rows : List ρ) : Prop where
  ends : ∃ pages, Follow respond none pages
  not_endless : ¬ Endless respond
  flatten_eq (pages : List (List ρ)) : Follow respond none pages → pages.flatten = rows

variable {respond : Option γ → List ρ → Option γ → Prop}

/-- Every cursor is answered, and what a next cursor leaves is smaller. -/
structure Shrinks (respond : Option γ → List ρ → Option γ → Prop) (Leaves : Option γ → Nat → Prop) :
    Prop where
  answered {c : Option γ} {m : Nat} : Leaves c m → ∃ items next, respond c items next
  next {c : Option γ} {m : Nat} {items : List ρ} {c' : γ} : Leaves c m →
    respond c items (some c') → ∃ m' < m, Leaves (some c') m'

section Shrinks

variable {Leaves : Option γ → Nat → Prop}

/-- From every cursor a reader can come to the end. -/
theorem Shrinks.exists_follow (h : Shrinks respond Leaves) {c : Option γ} {m : Nat}
    (hm : Leaves c m) : ∃ pages, Follow respond c pages := by
  -- by the size of what is left
  induction m using Nat.strong_induction_on generalizing c with
  | _ m ih =>
    obtain ⟨items, next, answer⟩ := h.answered hm
    cases next with
    | none => exact ⟨[items], .last answer⟩
    | some c' =>
      obtain ⟨m', hlt, hm'⟩ := h.next hm answer
      obtain ⟨pages, hpages⟩ := ih m' hlt hm'
      exact ⟨items :: pages, .next answer hpages⟩

/-- Every answer is the first page of a reader who comes to the end. -/
theorem Shrinks.exists_follow_cons (h : Shrinks respond Leaves) {c : Option γ} {m : Nat}
    (hm : Leaves c m) {items : List ρ} {next : Option γ} (answer : respond c items next) :
    ∃ pages, Follow respond c (items :: pages) := by
  cases next with
  | none => exact ⟨[], .last answer⟩
  | some c' =>
    obtain ⟨m', -, hm'⟩ := h.next hm answer
    obtain ⟨pages, hpages⟩ := h.exists_follow hm'
    exact ⟨pages, .next answer hpages⟩

/-- No reader goes on for ever. -/
theorem Shrinks.not_endless (h : Shrinks respond Leaves) {m : Nat} (hm : Leaves none m) :
    ¬ Endless respond := by
  rintro ⟨cursors, hfirst, hnext⟩
  have hleft (i : Nat) : ∃ m', Leaves (cursors i) m' ∧ m' + i ≤ m := by
    induction i with
    | zero =>
      rw [hfirst]
      exact ⟨m, hm, le_rfl⟩
    | succ i ih =>
      obtain ⟨m', hm', hle⟩ := ih
      obtain ⟨items, next, answer, hcursor⟩ := hnext i
      obtain ⟨m'', hlt, hm''⟩ := h.next hm' answer
      rw [hcursor]
      exact ⟨m'', hm'', by omega⟩
  obtain ⟨m', -, hle⟩ := hleft (m + 1)
  omega

end Shrinks

/-- What a cursor leaves to read is a state `s` that shows `rows s`; a page that is not the last
    takes its items off the front and leaves a smaller state. -/
structure Slices (respond : Option γ → List ρ → Option γ → Prop) (Leaves : Option γ → σ → Prop)
    (rows : σ → List ρ) (size : σ → Nat) : Prop where
  answered {c : Option γ} {s : σ} : Leaves c s → ∃ items next, respond c items next
  last {c : Option γ} {s : σ} {items : List ρ} : Leaves c s → respond c items none → items = rows s
  next {c : Option γ} {s : σ} {items : List ρ} {c' : γ} : Leaves c s → respond c items (some c') →
    ∃ s', Leaves (some c') s' ∧ size s' < size s ∧ rows s = items ++ rows s'

variable {Leaves : Option γ → σ → Prop} {rows : σ → List ρ} {size : σ → Nat}

/-- The states get smaller. -/
theorem Slices.shrinks (h : Slices respond Leaves rows size) :
    Shrinks respond fun c m => ∃ s, Leaves c s ∧ size s = m where
  answered := by
    rintro c _ ⟨s, hs, rfl⟩
    exact h.answered hs
  next := by
    rintro c _ items c' ⟨s, hs, rfl⟩ answer
    obtain ⟨s', hs', hlt, -⟩ := h.next hs answer
    exact ⟨size s', hlt, s', hs', rfl⟩

/-- A reader who starts at a cursor reads what the cursor leaves. -/
theorem Slices.flatten_eq (h : Slices respond Leaves rows size) {c : Option γ}
    {pages : List (List ρ)} (hfollow : Follow respond c pages) :
    ∀ {s : σ}, Leaves c s → pages.flatten = rows s := by
  induction hfollow with
  | last answer =>
    intro s hs
    rw [List.flatten_singleton]
    exact h.last hs answer
  | next answer _ ih =>
    intro s hs
    obtain ⟨s', hs', -, hrows⟩ := h.next hs answer
    rw [List.flatten_cons, ih hs', hrows]

/-- **Paging by slices** shows the whole sequence in its order. -/
theorem Slices.enumerates (h : Slices respond Leaves rows size) {s : σ} (hs : Leaves none s) :
    Enumerates respond (rows s) where
  ends := h.shrinks.exists_follow ⟨s, hs, rfl⟩
  not_endless := h.shrinks.not_endless ⟨s, hs, rfl⟩
  flatten_eq _ hpages := h.flatten_eq hpages hs

end Slices

/-! ### A total order -/

section Ordered

variable {γ ρ κ : Type*} [LinearOrder κ]

/-- The rows behind a key, greatest keys first; without a key all rows. -/
def behind (key : ρ → κ) (rows : List ρ) (k : Option κ) : List ρ :=
  rows.filter fun r => ∀ k' ∈ k, key r < k'

/-- A service that orders its rows by a key, greatest first, and goes on behind the last row of a
    page; how it finds out that there are more rows is left open. -/
structure OrderedKeyset (respond : Option γ → List ρ → Option γ → Prop) (key : ρ → κ) (n : Nat)
    (rows : List ρ) (encode : ρ → γ) (decode : γ → Option κ) : Prop where
  answered (c : Option γ) : ∃ items next, respond c items next
  items_eq {c : Option γ} {items : List ρ} {next : Option γ} : respond c items next →
    items = (stableSort (latestFirst key) (behind key rows (c.bind decode))).take n
  last {c : Option γ} {items : List ρ} : respond c items none →
    (behind key rows (c.bind decode)).length ≤ n
  next {c : Option γ} {items : List ρ} {c' : γ} : respond c items (some c') →
    ∃ r, items.getLast? = some r ∧ c' = encode r
  decode_encode (r : ρ) : r ∈ rows → decode (encode r) = some (key r)

variable {respond : Option γ → List ρ → Option γ → Prop} {key : ρ → κ} {n : Nat} {rows : List ρ}
  {encode : ρ → γ} {decode : γ → Option κ}

/-- A service with the same answers pages alike. -/
theorem OrderedKeyset.congr {respond' : Option γ → List ρ → Option γ → Prop}
    (h : OrderedKeyset respond key n rows encode decode)
    (hiff : ∀ c items next, respond' c items next ↔ respond c items next) :
    OrderedKeyset respond' key n rows encode decode where
  answered c := by
    obtain ⟨items, next, answer⟩ := h.answered c
    exact ⟨items, next, (hiff c items next).mpr answer⟩
  items_eq answer := h.items_eq ((hiff _ _ _).mp answer)
  last answer := h.last ((hiff _ _ _).mp answer)
  next answer := h.next ((hiff _ _ _).mp answer)
  decode_encode := h.decode_encode

/-- Rows with different keys are in strict order. -/
theorem pairwise_stableSort_of_nodup (hkeys : (rows.map key).Nodup) :
    (stableSort (latestFirst key) rows).Pairwise fun a b => key b < key a := by
  have htrans : Std.TransCmp (latestFirst key) := compareBy.transCmp key
  have hperm := stableSort_perm (latestFirst key) rows
  have hnodup : ((stableSort (latestFirst key) rows).map key).Nodup :=
    (hperm.map key).nodup_iff.mpr hkeys
  have hsorted := (pairwise_stableSort (latestFirst key) rows).and
    (List.pairwise_map.mp hnodup)
  exact hsorted.imp fun h => lt_of_le_of_ne (isLE_latestFirst.mp h.1) (Ne.symm h.2)

/-- What comes behind a row of a strictly ordered list is the rest of the list. -/
theorem filter_lt_of_split {front back : List ρ} {r : ρ}
    (h : (front ++ r :: back).Pairwise fun a b => key b < key a) :
    (front ++ r :: back).filter (fun s => key s < key r) = back := by
  obtain ⟨-, hback, hcross⟩ := List.pairwise_append.mp h
  have hfront : front.filter (fun s => key s < key r) = [] := by
    apply List.filter_eq_nil_iff.mpr
    intro s hs
    have hlt : key r < key s := hcross s hs r List.mem_cons_self
    simpa using hlt.le
  have hall : back.filter (fun s => key s < key r) = back := by
    apply List.filter_eq_self.mpr
    intro s hs
    simpa using (List.pairwise_cons.mp hback).1 s hs
  rw [List.filter_append, hfront, List.nil_append, List.filter_cons_of_neg (by simp), hall]

/-- **Paging by a key without ties**: the reader sees the rows in the order of their keys. -/
theorem OrderedKeyset.enumerates (h : OrderedKeyset respond key n rows encode decode)
    (hkeys : (rows.map key).Nodup) :
    Enumerates respond (stableSort (latestFirst key) rows) := by
  have htrans : Std.TransCmp (latestFirst key) := compareBy.transCmp key
  have hsorted := pairwise_stableSort_of_nodup hkeys
  -- a cursor leaves the rows behind it, an end of the whole sequence
  have hslices : Slices respond
      (fun c left => left = stableSort (latestFirst key) (behind key rows (c.bind decode))
        ∧ ∃ front, stableSort (latestFirst key) rows = front ++ left) (fun left => left) List.length :=
    { answered := fun {c _} _ => h.answered c
      last := by
        rintro c left items ⟨rfl, -⟩ hanswer
        rw [h.items_eq hanswer, List.take_of_length_le]
        rw [length_stableSort]
        exact h.last hanswer
      next := by
        rintro c left items c' ⟨hleft, front, hfront⟩ hanswer
        obtain ⟨r, hlast, rfl⟩ := h.next hanswer
        have hitems : items = left.take n := hleft ▸ h.items_eq hanswer
        obtain ⟨init, hinit⟩ := List.getLast?_eq_some_iff.mp hlast
        have hleft' : left = init ++ r :: left.drop n := by
          conv_lhs => rw [← List.take_append_drop n left, ← hitems, hinit]
          rw [List.append_assoc, List.singleton_append]
        have hsplit : stableSort (latestFirst key) rows = (front ++ init) ++ r :: left.drop n := by
          rw [List.append_assoc, ← hleft', hfront]
        have hr : r ∈ rows := by
          have hmem : r ∈ stableSort (latestFirst key) rows := by
            rw [hsplit]
            simp
          exact mem_stableSort.mp hmem
        refine ⟨left.drop n, ⟨?_, front ++ init ++ [r], by rw [hsplit]; simp⟩, ?_, ?_⟩
        · rw [Option.bind_some, h.decode_encode r hr]
          have hbehind : behind key rows (some (key r)) = rows.filter fun s => key s < key r := by
            simp [behind]
          rw [hbehind, ← filter_stableSort, hsplit]
          rw [hsplit] at hsorted
          exact (filter_lt_of_split hsorted).symm
        · have hlength : items.length + (left.drop n).length = left.length := by
            rw [hitems, ← List.length_append, List.take_append_drop]
          have hpos : 0 < items.length := by
            rw [hinit]
            simp
          omega
        · rw [hitems, List.take_append_drop] }
  refine hslices.enumerates (s := stableSort (latestFirst key) rows) ⟨?_, [], rfl⟩
  have hall : behind key rows ((none : Option γ).bind decode) = rows := by simp [behind]
  rw [hall]

end Ordered

end Oecophylla.Lib
