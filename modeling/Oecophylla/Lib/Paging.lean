import Mathlib.Data.List.Count
import Mathlib.Data.List.Perm.Lattice
import Oecophylla.Lib.StableSort

namespace Oecophylla.Lib

/-!
# Library — paging by a cursor

A list is read page by page.  The database orders the rows by a time stamp, latest first, and may
order rows of one stamp as it likes; the cursor of a page is the stamp and the id of its last row,
and the next page has rows below it in the order of both.

* `Answer` — a page that the database may return;
* `Walk` — the pages of a reader who follows the cursors to the end;
* `NoTieAtPageEnd` — no page ends in a group of rows that share a stamp;
* `walks_perm_iff` — every walk has each row once exactly when no page ends in such a group;
* `Follow` — the same walk, over the texts that a service returns as its cursors.
-/

section Rows

variable {ρ τ ι : Type*} [LinearOrder τ] [LinearOrder ι]

/-- The row comes after the position, latest rows first. -/
def Below (stamp : ρ → τ) (id : ρ → ι) (k : τ × ι) (r : ρ) : Prop :=
  stamp r < k.1 ∨ stamp r = k.1 ∧ id r < k.2

instance (stamp : ρ → τ) (id : ρ → ι) (k : τ × ι) (r : ρ) : Decidable (Below stamp id k r) :=
  inferInstanceAs (Decidable (_ ∨ _))

/-- The rows after a position. -/
def rest (stamp : ρ → τ) (id : ρ → ι) (k : τ × ι) (rows : List ρ) : List ρ :=
  rows.filter fun r => Below stamp id k r

/-- A page that `ORDER BY stamp DESC LIMIT n` may return. -/
def Answer (stamp : ρ → τ) (n : Nat) (rows page : List ρ) : Prop :=
  ∃ l : List ρ, l.Perm rows ∧ l.Pairwise (fun a b => stamp b ≤ stamp a) ∧ page = l.take n

/-- The pages from the given rows on, until one is not full. -/
inductive Walk (stamp : ρ → τ) (id : ρ → ι) (n : Nat) : List ρ → List (List ρ) → Prop
  | last {rows page : List ρ} (answer : Answer stamp n rows page) (short : page.length ≠ n) :
      Walk stamp id n rows [page]
  | next {rows page : List ρ} {r : ρ} {pages : List (List ρ)} (answer : Answer stamp n rows page)
      (full : page.length = n) (cursor : page.getLast? = some r)
      (tail : Walk stamp id n (rest stamp id (stamp r, id r) rows) pages) :
      Walk stamp id n rows (page :: pages)

/-- How many rows are later than a row. -/
def later (stamp : ρ → τ) (rows : List ρ) (r : ρ) : Nat := rows.countP fun s => stamp r < stamp s

/-- How many rows are not earlier than a row. -/
def notEarlier (stamp : ρ → τ) (rows : List ρ) (r : ρ) : Nat :=
  rows.countP fun s => stamp r ≤ stamp s

/-- Another row has the same stamp. -/
def Tied (stamp : ρ → τ) (id : ρ → ι) (rows : List ρ) (r : ρ) : Prop :=
  ∃ s ∈ rows, id s ≠ id r ∧ stamp s = stamp r

/-- No page of `n` rows ends in a group of two or more rows that share a stamp: as many pages are
    full before the group as are full with it. -/
def NoTieAtPageEnd (stamp : ρ → τ) (id : ρ → ι) (n : Nat) (rows : List ρ) : Prop :=
  ∀ r ∈ rows, Tied stamp id rows r → later stamp rows r / n = notEarlier stamp rows r / n

instance (stamp : ρ → τ) (id : ρ → ι) (rows : List ρ) (r : ρ) : Decidable (Tied stamp id rows r) :=
  inferInstanceAs (Decidable (∃ _ ∈ _, _))

instance (stamp : ρ → τ) (id : ρ → ι) (n : Nat) (rows : List ρ) :
    Decidable (NoTieAtPageEnd stamp id n rows) :=
  inferInstanceAs (Decidable (∀ _ ∈ _, _))

variable {stamp : ρ → τ} {id : ρ → ι} {n : Nat} {rows page : List ρ} {pages : List (List ρ)} {r : ρ}

/-! ### Pages -/

/-- The database always has an answer. -/
theorem exists_answer (stamp : ρ → τ) (n : Nat) (rows : List ρ) : ∃ page, Answer stamp n rows page := by
  have htotal : Std.Total fun a b : ρ => stamp b ≤ stamp a := ⟨fun a b => le_total (stamp b) (stamp a)⟩
  have htrans : IsTrans ρ fun a b : ρ => stamp b ≤ stamp a := ⟨fun _ _ _ hab hbc => hbc.trans hab⟩
  exact ⟨_, rows.insertionSort fun a b => stamp b ≤ stamp a, List.perm_insertionSort _ rows,
    List.pairwise_insertionSort _ rows, rfl⟩

/-- The rows of a page and those that it leaves out. -/
theorem Answer.split (h : Answer stamp n rows page) :
    ∃ left, (page ++ left).Perm rows ∧ (page ++ left).Pairwise (fun a b => stamp b ≤ stamp a)
      ∧ page = (page ++ left).take n := by
  obtain ⟨l, hperm, hsorted, rfl⟩ := h
  refine ⟨l.drop n, ?_, ?_, ?_⟩
  · rwa [List.take_append_drop]
  · rwa [List.take_append_drop]
  · rw [List.take_append_drop]

/-- A page that is not full has all rows. -/
theorem Answer.perm_of_short (h : Answer stamp n rows page) (hshort : page.length ≠ n) :
    page.Perm rows := by
  obtain ⟨l, hperm, -, rfl⟩ := h
  rw [List.length_take] at hshort
  rwa [List.take_of_length_le (by omega)]

theorem Answer.mem (h : Answer stamp n rows page) (hr : r ∈ page) : r ∈ rows := by
  obtain ⟨l, hperm, -, rfl⟩ := h
  exact hperm.mem_iff.mp (List.mem_of_mem_take hr)

/-- A row is not below itself. -/
theorem not_below_self (r : ρ) : ¬ Below stamp id (stamp r, id r) r := by
  rintro (h | ⟨-, h⟩)
  · exact lt_irrefl _ h
  · exact lt_irrefl _ h

theorem mem_rest {k : τ × ι} : r ∈ rest stamp id k rows ↔ r ∈ rows ∧ Below stamp id k r := by
  rw [rest, List.mem_filter, decide_eq_true_iff]

/-- Each cursor leaves fewer rows. -/
theorem length_rest_lt (hr : r ∈ rows) :
    (rest stamp id (stamp r, id r) rows).length < rows.length := by
  apply List.length_filter_lt_length_iff_exists.mpr
  exact ⟨r, hr, by simpa using not_below_self r⟩

/-- There is a walk to the end from any rows. -/
theorem exists_walk (stamp : ρ → τ) (id : ρ → ι) (hn : 0 < n) (rows : List ρ) :
    ∃ pages, Walk stamp id n rows pages := by
  induction hlength : rows.length using Nat.strong_induction_on generalizing rows with
  | _ m ih =>
    obtain ⟨page, hanswer⟩ := exists_answer stamp n rows
    by_cases hfull : page.length = n
    · have hne : page ≠ [] := List.ne_nil_of_length_pos (by omega)
      have hlast := List.getLast?_eq_some_getLast hne
      have hlt : (rest stamp id _ rows).length < rows.length :=
        length_rest_lt (hanswer.mem (List.mem_of_getLast? hlast))
      obtain ⟨pages, hpages⟩ := ih _ (hlength ▸ hlt) _ rfl
      exact ⟨page :: pages, .next hanswer hfull hlast hpages⟩
    · exact ⟨[page], .last hanswer hfull⟩

/-- A walk shows only rows of the list. -/
theorem Walk.mem (h : Walk stamp id n rows pages) (hr : r ∈ pages.flatten) : r ∈ rows := by
  induction h with
  | last answer short =>
    rw [List.flatten_singleton] at hr
    exact answer.mem hr
  | next answer full cursor tail ih =>
    rw [List.flatten_cons, List.mem_append] at hr
    rcases hr with hr | hr
    · exact answer.mem hr
    · exact (mem_rest.mp (ih hr)).1

/-! ### A page whose last row is alone with its stamp -/

/-- The last row of a sorted page is the earliest. -/
theorem last_le (hsorted : page.Pairwise fun a b => stamp b ≤ stamp a)
    (hlast : page.getLast? = some r) {s : ρ} (hs : s ∈ page) : stamp r ≤ stamp s := by
  obtain ⟨init, rfl⟩ := List.getLast?_eq_some_iff.mp hlast
  rcases List.mem_append.mp hs with hs | hs
  · exact (List.pairwise_append.mp hsorted).2.2 s hs r (List.mem_singleton_self r)
  · rw [List.mem_singleton.mp hs]

/-- The rows of a full page are not earlier than its last row, the others not later. -/
theorem Answer.around_last (h : Answer stamp n rows page) (hlast : page.getLast? = some r) :
    (∀ s ∈ page, stamp r ≤ stamp s)
      ∧ ∃ left, (page ++ left).Perm rows ∧ ∀ s ∈ left, stamp s ≤ stamp r := by
  obtain ⟨left, hperm, hsorted, -⟩ := h.split
  obtain ⟨hpage, -, hcross⟩ := List.pairwise_append.mp hsorted
  exact ⟨fun s hs => last_le hpage hlast hs, left, hperm,
    fun s hs => hcross r (List.mem_of_getLast? hlast) s hs⟩

/-- The last row of a full page is in the group of rows where the page ends. -/
theorem Answer.later_last_lt (h : Answer stamp n rows page) (hfull : page.length = n)
    (hlast : page.getLast? = some r) :
    later stamp rows r < n ∧ n ≤ notEarlier stamp rows r := by
  obtain ⟨hpage, left, hperm, hleft⟩ := h.around_last hlast
  have hmem := List.mem_of_getLast? hlast
  unfold later notEarlier
  rw [← hperm.countP_eq, ← hperm.countP_eq, List.countP_append, List.countP_append]
  constructor
  · have hzero : left.countP (fun s => stamp r < stamp s) = 0 := by
      apply List.countP_eq_zero.mpr
      intro s hs
      simpa using hleft s hs
    have hlt : page.countP (fun s => stamp r < stamp s) < page.length := by
      apply lt_of_le_of_ne List.countP_le_length
      intro heq
      simpa using List.countP_eq_length.mp heq r hmem
    omega
  · have hall : page.countP (fun s => stamp r ≤ stamp s) = page.length := by
      apply List.countP_eq_length.mpr
      intro s hs
      simpa using hpage s hs
    omega

section Alone

variable (hids : (rows.map id).Nodup) (h : Answer stamp n rows page) (hfull : page.length = n)
  (hlast : page.getLast? = some r) (halone : ¬ Tied stamp id rows r)

include hids h halone hlast

/-- A row of the stamp is the last row itself. -/
theorem eq_of_alone {s : ρ} (hs : s ∈ rows) (hstamp : stamp s = stamp r) : s = r := by
  have hid : id s = id r := by
    by_contra hne
    exact halone ⟨s, hs, hne, hstamp⟩
  exact List.inj_on_of_nodup_map hids hs (h.mem (List.mem_of_getLast? hlast)) hid

/-- The rows after the cursor are earlier. -/
theorem lt_of_mem_rest {s : ρ} (hs : s ∈ rest stamp id (stamp r, id r) rows) :
    stamp s < stamp r := by
  obtain ⟨hrows, hlt | ⟨heq, hid⟩⟩ := mem_rest.mp hs
  · exact hlt
  · rw [eq_of_alone hids h hlast halone hrows heq] at hid
    exact absurd hid (lt_irrefl _)

/-- **A page that ends with a row alone**: it and the rows after its cursor are all rows. -/
theorem Answer.perm_rest : (page ++ rest stamp id (stamp r, id r) rows).Perm rows := by
  obtain ⟨hpage, left, hperm, hleft⟩ := h.around_last hlast
  have hrows : rows.Nodup := hids.of_map
  have hnodup : (page ++ left).Nodup := hperm.nodup_iff.mpr hrows
  have hnone : rest stamp id (stamp r, id r) page = [] := by
    apply List.filter_eq_nil_iff.mpr
    intro s hs
    rw [decide_eq_true_iff]
    rintro (hlt | ⟨heq, hid⟩)
    · exact absurd hlt (not_lt.mpr (hpage s hs))
    · rw [eq_of_alone hids h hlast halone (h.mem hs) heq] at hid
      exact lt_irrefl _ hid
  have hevery : rest stamp id (stamp r, id r) left = left := by
    apply List.filter_eq_self.mpr
    intro s hs
    rw [decide_eq_true_iff]
    refine Or.inl (lt_of_le_of_ne (hleft s hs) fun heq => ?_)
    have hsame := eq_of_alone hids h hlast halone
      (hperm.mem_iff.mp (List.mem_append_right page hs)) heq
    rw [hsame] at hs
    exact (List.nodup_append.mp hnodup).2.2 r (List.mem_of_getLast? hlast) r hs rfl
  have hrest : (rest stamp id (stamp r, id r) (page ++ left)).Perm
      (rest stamp id (stamp r, id r) rows) := hperm.filter _
  rw [rest, List.filter_append] at hrest
  rw [rest] at hnone hevery
  rw [hnone, hevery, List.nil_append] at hrest
  exact (hrest.symm.append_left page).trans hperm

include hfull

/-- After the page, `n` rows fewer are later. -/
theorem later_of_mem_rest {s : ρ} (hs : s ∈ rest stamp id (stamp r, id r) rows) :
    later stamp rows s = n + later stamp (rest stamp id (stamp r, id r) rows) s
      ∧ notEarlier stamp rows s = n + notEarlier stamp (rest stamp id (stamp r, id r) rows) s := by
  have hperm := h.perm_rest hids hlast halone
  have hlt (a : ρ) (ha : a ∈ page) : stamp s < stamp a :=
    lt_of_lt_of_le (lt_of_mem_rest hids h hlast halone hs) ((h.around_last hlast).1 a ha)
  unfold later notEarlier
  rw [← hperm.countP_eq, ← hperm.countP_eq, List.countP_append, List.countP_append]
  constructor
  · rw [List.countP_eq_length.mpr fun a ha => by simpa using hlt a ha, hfull]
  · rw [List.countP_eq_length.mpr fun a ha => by simpa using (hlt a ha).le, hfull]

/-- A row of the page that shares its stamp is in a group that the page contains. -/
theorem notEarlier_lt_of_tied {s : ρ} (hs : s ∈ page) (htied : Tied stamp id rows s) :
    notEarlier stamp rows s < n := by
  have hperm := h.perm_rest hids hlast halone
  have hlt : stamp r < stamp s := by
    refine lt_of_le_of_ne ((h.around_last hlast).1 s hs) fun heq => ?_
    obtain ⟨partner, hpartner, hne, hstamp⟩ := htied
    have hsame := eq_of_alone hids h hlast halone (h.mem hs) heq.symm
    rw [hsame] at hne hstamp
    exact halone ⟨partner, hpartner, hne, hstamp⟩
  unfold notEarlier
  rw [← hperm.countP_eq, List.countP_append]
  have hzero : (rest stamp id (stamp r, id r) rows).countP (fun a => stamp s ≤ stamp a) = 0 := by
    apply List.countP_eq_zero.mpr
    intro a ha
    simpa using (lt_of_mem_rest hids h hlast halone ha).trans hlt
  have hpage : page.countP (fun a => stamp s ≤ stamp a) < page.length := by
    apply lt_of_le_of_ne List.countP_le_length
    intro heq
    exact absurd hlt (not_lt.mpr (by simpa using List.countP_eq_length.mp heq r (List.mem_of_getLast? hlast)))
  omega

/-- The condition on all rows is the one on the rows after the page. -/
theorem noTieAtPageEnd_iff_rest (hn : 0 < n) :
    NoTieAtPageEnd stamp id n rows
      ↔ NoTieAtPageEnd stamp id n (rest stamp id (stamp r, id r) rows) := by
  have hperm := h.perm_rest hids hlast halone
  constructor
  · intro hrows s hs ⟨partner, hpartner, hne, hstamp⟩
    have hdiv := hrows s (mem_rest.mp hs).1 ⟨partner, (mem_rest.mp hpartner).1, hne, hstamp⟩
    obtain ⟨hlater, hnot⟩ := later_of_mem_rest hids h hfull hlast halone hs
    rw [hlater, hnot, Nat.add_div_left _ hn, Nat.add_div_left _ hn] at hdiv
    exact Nat.succ.inj hdiv
  · intro hrest s hs htied
    rcases List.mem_append.mp (hperm.mem_iff.mpr hs) with hpage | hs'
    · have hlt := notEarlier_lt_of_tied hids h hfull hlast halone hpage htied
      have hle : later stamp rows s ≤ notEarlier stamp rows s :=
        List.countP_mono_left fun a _ ha => by simpa using (of_decide_eq_true ha).le
      rw [Nat.div_eq_of_lt hlt, Nat.div_eq_of_lt (by omega)]
    · obtain ⟨hlater, hnot⟩ := later_of_mem_rest hids h hfull hlast halone hs'
      obtain ⟨partner, hpartner, hne, hstamp⟩ := htied
      have hbelow : partner ∈ rest stamp id (stamp r, id r) rows := by
        refine mem_rest.mpr ⟨hpartner, Or.inl ?_⟩
        rw [hstamp]
        exact lt_of_mem_rest hids h hlast halone hs'
      rw [hlater, hnot, Nat.add_div_left _ hn, Nat.add_div_left _ hn,
        hrest s hs' ⟨partner, hbelow, hne, hstamp⟩]

end Alone

omit [LinearOrder ι] in
/-- Under the condition the last row of a full page is alone with its stamp. -/
theorem NoTieAtPageEnd.alone (hnotie : NoTieAtPageEnd stamp id n rows)
    (h : Answer stamp n rows page) (hfull : page.length = n) (hlast : page.getLast? = some r) :
    ¬ Tied stamp id rows r := by
  intro htied
  obtain ⟨hlt, hle⟩ := h.later_last_lt hfull hlast
  have hn : 0 < n := by omega
  have hdiv := hnotie r (h.mem (List.mem_of_getLast? hlast)) htied
  rw [Nat.div_eq_of_lt hlt] at hdiv
  have hpos := Nat.div_pos hle hn
  omega

/-! ### A page that ends in a group -/

/-- The rows in three parts around a stamp, the first and the last one sorted. -/
private theorem exists_parts (stamp : ρ → τ) (t : τ) (rows : List ρ) :
    ∃ new old : List ρ,
      (new ++ rows.filter (fun s => stamp s = t) ++ old).Perm rows
        ∧ new.Pairwise (fun a b => stamp b ≤ stamp a) ∧ old.Pairwise (fun a b => stamp b ≤ stamp a)
        ∧ (∀ s ∈ new, t < stamp s) ∧ (∀ s ∈ old, stamp s < t)
        ∧ new.length = rows.countP fun s => t < stamp s := by
  have htotal : Std.Total fun a b : ρ => stamp b ≤ stamp a := ⟨fun a b => le_total (stamp b) (stamp a)⟩
  have htrans : IsTrans ρ fun a b : ρ => stamp b ≤ stamp a := ⟨fun _ _ _ hab hbc => hbc.trans hab⟩
  have hnew := List.perm_insertionSort (fun a b : ρ => stamp b ≤ stamp a)
    (rows.filter fun s => t < stamp s)
  have hold := List.perm_insertionSort (fun a b : ρ => stamp b ≤ stamp a)
    (rows.filter fun s => stamp s < t)
  refine ⟨_, _, ?_, List.pairwise_insertionSort _ (rows.filter fun s => t < stamp s),
    List.pairwise_insertionSort _ (rows.filter fun s => stamp s < t), ?_, ?_, ?_⟩
  · refine ((hnew.append_right _).append hold).trans ?_
    -- the rows at or before the stamp, then all rows
    have hrest : (rows.filter (fun s => stamp s = t) ++ rows.filter fun s => stamp s < t).Perm
        (rows.filter fun s => !decide (t < stamp s)) := by
      have hsplit := List.filter_append_perm (fun s => decide (stamp s = t))
        (rows.filter fun s => !decide (t < stamp s))
      rw [List.filter_filter, List.filter_filter] at hsplit
      refine List.Perm.trans (List.Perm.of_eq ?_) hsplit
      congr 1
      · apply List.filter_congr
        intro s _
        by_cases heq : stamp s = t
        · simp [heq]
        · simp [heq]
      · apply List.filter_congr
        intro s _
        rcases lt_trichotomy (stamp s) t with hlt | heq | hgt
        · simp [hlt, hlt.ne, hlt.le]
        · simp [heq]
        · simp [hgt.ne', hgt, not_lt.mpr hgt.le]
    rw [List.append_assoc]
    exact (hrest.append_left _).trans (List.filter_append_perm (fun s => decide (t < stamp s)) rows)
  · intro s hs
    simpa using (List.mem_filter.mp (hnew.mem_iff.mp hs)).2
  · intro s hs
    simpa using (List.mem_filter.mp (hold.mem_iff.mp hs)).2
  · rw [hnew.length_eq, List.countP_eq_length_filter]

/-- A list that is sorted in three parts. -/
private theorem pairwise_parts {t : τ} {new same old : List ρ}
    (hnew : new.Pairwise fun a b => stamp b ≤ stamp a)
    (hold : old.Pairwise fun a b => stamp b ≤ stamp a) (hlater : ∀ s ∈ new, t < stamp s)
    (hsame : ∀ s ∈ same, stamp s = t) (hearlier : ∀ s ∈ old, stamp s < t) :
    (new ++ same ++ old).Pairwise fun a b => stamp b ≤ stamp a := by
  refine List.pairwise_append.mpr ⟨List.pairwise_append.mpr ⟨hnew, ?_, ?_⟩, hold, ?_⟩
  · exact List.pairwise_iff_forall_sublist.mpr fun {a b} hab => by
      rw [hsame a (hab.subset (by simp)), hsame b (hab.subset (by simp))]
  · intro a ha b hb
    rw [hsame b hb]
    exact (hlater a ha).le
  · intro a ha b hb
    rcases List.mem_append.mp ha with ha | ha
    · exact (hearlier b hb).le.trans (hlater a ha).le
    · rw [hsame a ha]
      exact (hearlier b hb).le

/-- A walk shows a row of the latest stamp. -/
private theorem Walk.exists_latest (h : Walk stamp id n rows pages) (hn : 0 < n) {a : ρ}
    (ha : a ∈ rows) (hlatest : ∀ s ∈ rows, stamp s ≤ stamp a) :
    ∃ x ∈ pages.flatten, x ∈ rows ∧ stamp x = stamp a := by
  have hfirst {page : List ρ} (answer : Answer stamp n rows page) :
      ∃ x ∈ page, x ∈ rows ∧ stamp x = stamp a := by
    obtain ⟨l, hperm, hsorted, rfl⟩ := answer
    have hal : a ∈ l := hperm.mem_iff.mpr ha
    obtain ⟨x, l', rfl⟩ := List.exists_cons_of_ne_nil (List.ne_nil_of_mem hal)
    have hx : x ∈ rows := hperm.mem_iff.mp List.mem_cons_self
    refine ⟨x, ?_, hx, le_antisymm (hlatest x hx) ?_⟩
    · obtain ⟨m, rfl⟩ := Nat.exists_eq_succ_of_ne_zero hn.ne'
      exact List.mem_cons_self
    · rcases List.mem_cons.mp hal with rfl | hal
      · exact le_rfl
      · exact (List.pairwise_cons.mp hsorted).1 a hal
  cases h with
  | last answer short => simpa using hfirst answer
  | next answer full cursor tail =>
    obtain ⟨x, hx, hrest⟩ := hfirst answer
    exact ⟨x, by simp [hx], hrest⟩

/-- A page that ends with `b`, with `a` of the same stamp and a lower id on it, and the whole group:
    the next page has a row of the group again. -/
private theorem exists_walk_repeats (hn : 0 < n) (hnodup : rows.Nodup) {a b : ρ} (ha : a ∈ rows)
    (hstamp : stamp a = stamp b) (hlt : id a < id b) (h : Answer stamp n rows page)
    (hfull : page.length = n) (hlast : page.getLast? = some b)
    (hgroup : ∀ s ∈ rows, stamp s = stamp b → s ∈ page) :
    ∃ pages, Walk stamp id n rows pages ∧ ¬ pages.flatten.Perm rows := by
  obtain ⟨pages, hpages⟩ := exists_walk stamp id hn (rest stamp id (stamp b, id b) rows)
  have harest : a ∈ rest stamp id (stamp b, id b) rows :=
    mem_rest.mpr ⟨ha, Or.inr ⟨hstamp, hlt⟩⟩
  have hlatest (s : ρ) (hs : s ∈ rest stamp id (stamp b, id b) rows) : stamp s ≤ stamp a := by
    rw [hstamp]
    rcases (mem_rest.mp hs).2 with h | ⟨h, -⟩
    · exact h.le
    · exact h.le
  obtain ⟨x, hx, hxrest, hxstamp⟩ := hpages.exists_latest hn harest hlatest
  refine ⟨_, .next h hfull hlast hpages, fun hbad => ?_⟩
  have hflat := hbad.nodup_iff.mpr hnodup
  rw [List.flatten_cons] at hflat
  exact (List.nodup_append.mp hflat).2.2 x
    (hgroup x (mem_rest.mp hxrest).1 (hxstamp.trans hstamp)) x hx rfl

/-- A page that ends with `a` and does not have `b` of the same stamp and a higher id: no later page
    has it. -/
private theorem exists_walk_loses (hn : 0 < n) {a b : ρ} (hb : b ∈ rows)
    (hstamp : stamp b = stamp a) (hlt : id a < id b) (h : Answer stamp n rows page)
    (hfull : page.length = n) (hlast : page.getLast? = some a) (hleft : b ∉ page) :
    ∃ pages, Walk stamp id n rows pages ∧ ¬ pages.flatten.Perm rows := by
  obtain ⟨pages, hpages⟩ := exists_walk stamp id hn (rest stamp id (stamp a, id a) rows)
  refine ⟨_, .next h hfull hlast hpages, fun hbad => ?_⟩
  rw [List.flatten_cons] at hbad
  rcases List.mem_append.mp (hbad.mem_iff.mpr hb) with hpage | hrest
  · exact hleft hpage
  · rcases (mem_rest.mp (hpages.mem hrest)).2 with h | ⟨-, h⟩
    · exact absurd h (not_lt.mpr hstamp.ge)
    · exact lt_asymm h hlt

/-- **A page that ends in a group**: the database has an answer from which the walk loses a row or
    shows one twice. -/
theorem exists_walk_not_perm (hn : 0 < n) (hids : (rows.map id).Nodup) (hr : r ∈ rows)
    (htied : Tied stamp id rows r) (hlater : later stamp rows r < n)
    (hnot : n ≤ notEarlier stamp rows r) :
    ∃ pages, Walk stamp id n rows pages ∧ ¬ pages.flatten.Perm rows := by
  classical
  have hnodup : rows.Nodup := hids.of_map
  obtain ⟨new, old, hperm, hnew, hold, hafter, hbefore, hlength⟩ := exists_parts stamp (stamp r) rows
  set group := rows.filter fun s => stamp s = stamp r with hgroup
  have hmem {s : ρ} (hs : s ∈ rows) (hstamp : stamp s = stamp r) : s ∈ group :=
    List.mem_filter.mpr ⟨hs, by simpa using hstamp⟩
  -- two rows of the group, in the order of their ids
  obtain ⟨a, b, ha, hb, hlt⟩ : ∃ a b, a ∈ group ∧ b ∈ group ∧ id a < id b := by
    obtain ⟨s, hs, hne, hstamp⟩ := htied
    rcases lt_or_gt_of_ne hne with hlt | hgt
    · exact ⟨s, r, hmem hs hstamp, hmem hr rfl, hlt⟩
    · exact ⟨r, s, hmem hr rfl, hmem hs hstamp, hgt⟩
  have hba : b ∈ group.erase a :=
    (List.mem_erase_of_ne (fun heq => hlt.ne (by rw [heq]))).mpr hb
  set others := (group.erase a).erase b with hothers
  have htwo : (a :: b :: others).Perm group :=
    (((List.perm_cons_erase hba).symm).cons a).trans (List.perm_cons_erase ha).symm
  have hstampOf {s : ρ} (hs : s ∈ a :: b :: others) : stamp s = stamp r := by
    simpa using (List.mem_filter.mp (htwo.mem_iff.mp hs)).2
  -- where the page ends in the group
  have hsize : n ≤ new.length + (others.length + 2) := by
    have hcount : notEarlier stamp rows r = new.length + group.length := by
      unfold notEarlier
      rw [← hperm.countP_eq, List.countP_append, List.countP_append]
      rw [List.countP_eq_length.mpr fun s hs => by simpa using (hafter s hs).le,
        List.countP_eq_length.mpr fun s hs => by
          simpa using (of_decide_eq_true (List.mem_filter.mp hs).2 : stamp s = stamp r).ge,
        List.countP_eq_zero.mpr fun s hs => by simpa using hbefore s hs, Nat.add_zero]
    have hcard := htwo.length_eq
    rw [List.length_cons, List.length_cons] at hcard
    omega
  have hnewlt : new.length < n := by
    rw [hlength]
    exact hlater
  have hanswer {same : List ρ} (hsame : same.Perm (a :: b :: others)) :
      Answer stamp n rows ((new ++ same ++ old).take n) :=
    ⟨_, (((hsame.trans htwo).append_left new).append_right old).trans hperm,
      pairwise_parts hnew hold hafter (fun s hs => hstampOf (hsame.mem_iff.mp hs)) hbefore, rfl⟩
  have hdistinct {same : List ρ} (hsame : same.Perm (a :: b :: others)) :
      (new ++ same ++ old).Nodup :=
    ((((hsame.trans htwo).append_left new).append_right old).trans hperm).nodup_iff.mpr hnodup
  have hab : stamp a = stamp b :=
    (hstampOf List.mem_cons_self).trans (hstampOf (List.mem_cons_of_mem a List.mem_cons_self)).symm
  by_cases hend : n = new.length + (others.length + 2)
  · -- the page ends where the group ends: the last row is `b`, and `a` comes again
    have hsame : (a :: others ++ [b]).Perm (a :: b :: others) :=
      (List.perm_append_singleton b others).cons a
    have hlen : (new ++ (a :: others ++ [b])).length = n := by simp [hend]
    have hpage := hanswer hsame
    rw [← hlen, List.take_left, hlen] at hpage
    refine exists_walk_repeats hn hnodup (List.mem_filter.mp ha).1 hab hlt hpage hlen
      (List.getLast?_eq_some_iff.mpr ⟨new ++ a :: others, by simp⟩) fun s hs hstamp => ?_
    have hsgroup := hmem hs (hstamp.trans (hab.symm.trans (hstampOf List.mem_cons_self)))
    exact List.mem_append_right new (hsame.mem_iff.mpr (htwo.mem_iff.mpr hsgroup))
  · -- the page ends inside the group: the last row is `a`, and `b` is never shown
    set j := n - new.length - 1 with hj
    have hsame : (others.take j ++ a :: b :: others.drop j).Perm (a :: b :: others) := by
      refine (@List.perm_append_comm _ (others.take j) _).trans ?_
      have hback : (others.drop j ++ others.take j).Perm others := by
        refine List.perm_append_comm.trans ?_
        rw [List.take_append_drop]
      exact (hback.cons b).cons a
    have hlist : new ++ (others.take j ++ a :: b :: others.drop j) ++ old
        = (new ++ others.take j ++ [a]) ++ (b :: others.drop j ++ old) := by simp
    have hlen : (new ++ others.take j ++ [a]).length = n := by
      simp only [List.length_append, List.length_take, List.length_singleton]
      omega
    have hpage := hanswer hsame
    have hall := hdistinct hsame
    rw [hlist] at hall
    rw [hlist, ← hlen, List.take_left, hlen] at hpage
    exact exists_walk_loses hn (List.mem_filter.mp hb).1 hab.symm hlt hpage hlen (by simp)
      fun hbpage => (List.nodup_append.mp hall).2.2 b hbpage b (by simp) rfl

/-- **When a reader sees each row once**: every walk, whatever the order of tied rows, has every row
    exactly once if and only if no page ends in a group of rows that share a stamp. -/
theorem walks_perm_iff (hn : 0 < n) (hids : (rows.map id).Nodup) :
    (∀ pages, Walk stamp id n rows pages → pages.flatten.Perm rows)
      ↔ NoTieAtPageEnd stamp id n rows := by
  -- by the number of rows: the rows after the first page are fewer
  induction hlength : rows.length using Nat.strong_induction_on generalizing rows with
  | _ m ih =>
    have hrestIds (k : τ × ι) : ((rest stamp id k rows).map id).Nodup :=
      hids.sublist (List.filter_sublist.map id)
    constructor
    · intro hall
      by_contra hcond
      -- a full first page that ends with a row alone, or a walk that goes wrong
      by_cases hgroup : ∃ r ∈ rows, Tied stamp id rows r ∧ later stamp rows r < n
          ∧ n ≤ notEarlier stamp rows r
      · obtain ⟨r, hr, htied, hlater, hnot⟩ := hgroup
        obtain ⟨pages, hwalk, hbad⟩ := exists_walk_not_perm hn hids hr htied hlater hnot
        exact hbad (hall pages hwalk)
      obtain ⟨page, hanswer⟩ := exists_answer stamp n rows
      by_cases hfull : page.length = n
      · have hne : page ≠ [] := List.ne_nil_of_length_pos (by omega)
        have hlast := List.getLast?_eq_some_getLast hne
        have hmem := hanswer.mem (List.mem_of_getLast? hlast)
        have halone : ¬ Tied stamp id rows (page.getLast hne) := fun htied =>
          hgroup ⟨_, hmem, htied, hanswer.later_last_lt hfull hlast⟩
        have hperm := hanswer.perm_rest hids hlast halone
        rw [noTieAtPageEnd_iff_rest hids hanswer hfull hlast halone hn] at hcond
        refine hcond ((ih _ (hlength ▸ length_rest_lt hmem) (hrestIds _) rfl).mp ?_)
        intro pages hpages
        have hwhole := hall _ (.next hanswer hfull hlast hpages)
        rw [List.flatten_cons] at hwhole
        exact (List.perm_append_left_iff page).mp (hwhole.trans hperm.symm)
      · refine hcond fun r hr htied => ?_
        have hshort := (hanswer.perm_of_short hfull).length_eq
        have hle : notEarlier stamp rows r ≤ rows.length := List.countP_le_length
        have hle' : later stamp rows r ≤ rows.length := List.countP_le_length
        have hlt : rows.length < n := by
          obtain ⟨l, hperm, -, rfl⟩ := hanswer
          rw [List.length_take] at hfull
          have := hperm.length_eq
          omega
        rw [Nat.div_eq_of_lt (by omega), Nat.div_eq_of_lt (by omega)]
    · intro hcond pages hwalk
      cases hwalk with
      | last answer short =>
        rw [List.flatten_singleton]
        exact answer.perm_of_short short
      | next answer full cursor tail =>
        have halone := hcond.alone answer full cursor
        have hmem := answer.mem (List.mem_of_getLast? cursor)
        have hrest := (ih _ (hlength ▸ length_rest_lt hmem) (hrestIds _) rfl).mpr
          ((noTieAtPageEnd_iff_rest hids answer full cursor halone hn).mp hcond) _ tail
        rw [List.flatten_cons]
        exact (hrest.append_left _).trans (answer.perm_rest hids cursor halone)

/-! ### The order in which a query reads its rows -/

/-- The order in which a query reads its rows; it breaks the ties of an `ORDER BY`. -/
structure Plan (ρ : Type*) where
  arrange : List ρ → List ρ
  perm (l : List ρ) : (arrange l).Perm l

/-- `ORDER BY stamp DESC`. -/
def latestFirst (stamp : ρ → τ) : ρ → ρ → Ordering := compareBy (fun a b => compare b a) stamp

theorem isLE_latestFirst {a b : ρ} : (latestFirst stamp a b).isLE = true ↔ stamp b ≤ stamp a := by
  show (compare (stamp b) (stamp a)).isLE = true ↔ _
  rw [Ordering.isLE_iff_ne_gt]
  exact compare_le_iff_le

/-- A list in the order of its stamps is sorted as it is. -/
theorem stableSort_latestFirst (h : rows.Pairwise fun a b => stamp b ≤ stamp a) :
    stableSort (latestFirst stamp) rows = rows :=
  List.Pairwise.insertionSort_eq (h.imp fun hab => isLE_latestFirst.mpr hab)

/-- The sorted list is an order that the database may choose. -/
theorem answer_stableSort {l : List ρ} (h : l.Perm rows) :
    Answer stamp n rows ((stableSort (latestFirst stamp) l).take n) := by
  have htrans : Std.TransCmp (latestFirst stamp) := compareBy.transCmp stamp
  exact ⟨_, (stableSort_perm _ l).trans h,
    (pairwise_stableSort _ l).imp fun hab => isLE_latestFirst.mp hab, rfl⟩

/-- The pages that the plans of the database give. -/
theorem answer_iff_plan :
    Answer stamp n rows page
      ↔ ∃ plan : Plan ρ, page = (stableSort (latestFirst stamp) (plan.arrange rows)).take n := by
  classical
  constructor
  · rintro ⟨l, hperm, hsorted, rfl⟩
    -- the plan reads these rows in the order of the answer
    refine ⟨⟨fun m => if m = rows then l else m, fun m => ?_⟩, ?_⟩
    · by_cases hm : m = rows
      · rw [if_pos hm, hm]
        exact hperm
      · rw [if_neg hm]
    · show _ = (stableSort _ (if rows = rows then l else rows)).take n
      rw [if_pos rfl, stableSort_latestFirst hsorted]
  · rintro ⟨plan, rfl⟩
    exact answer_stableSort (plan.perm rows)

/-! ### Cursors as a service returns them -/

section Cursors

variable {γ : Type*}

/-- The pages of a reader who asks with each cursor that the service returns: `respond c items next`
    says that the service may answer the cursor `c` with these items and this next cursor. -/
inductive Follow (respond : Option γ → List ρ → Option γ → Prop) :
    Option γ → List (List ρ) → Prop
  | last {c : Option γ} {items : List ρ} (answer : respond c items none) : Follow respond c [items]
  | next {c : Option γ} {items : List ρ} {c' : γ} {pages : List (List ρ)}
      (answer : respond c items (some c')) (tail : Follow respond (some c') pages) :
      Follow respond c (items :: pages)

/-- A reader may get a next cursor without end. -/
def Endless (respond : Option γ → List ρ → Option γ → Prop) : Prop :=
  ∃ cursors : Nat → Option γ, cursors 0 = none
    ∧ ∀ i, ∃ items next, respond (cursors i) items (some next) ∧ cursors (i + 1) = some next

/-- Following the cursors from the first page comes to an end, never goes on for ever, and visits
    each of the rows exactly once. -/
structure Complete (respond : Option γ → List ρ → Option γ → Prop) (rows : List ρ) : Prop where
  ends : ∃ pages, Follow respond none pages
  not_endless : ¬ Endless respond
  perm (pages : List (List ρ)) : Follow respond none pages → pages.flatten.Perm rows

/-- The rows that a cursor leaves; one that is not read leaves all. -/
def leftBy (stamp : ρ → τ) (id : ρ → ι) (rows : List ρ) : Option (τ × ι) → List ρ
  | none => rows
  | some k => rest stamp id k rows

/-- A service that pages by stamp and id, and writes the position of the last row of a full page
    into its next cursor. -/
structure Keyset (respond : Option γ → List ρ → Option γ → Prop) (stamp : ρ → τ) (id : ρ → ι)
    (n : Nat) (rows : List ρ) (encode : ρ → γ) (decode : γ → Option (τ × ι)) : Prop where
  respond_iff (c : Option γ) (items : List ρ) (next : Option γ) : respond c items next
    ↔ Answer stamp n (leftBy stamp id rows (c.bind decode)) items
      ∧ next = if items.length = n then items.getLast?.map encode else none
  decode_encode (r : ρ) : r ∈ rows → decode (encode r) = some (stamp r, id r)

theorem mem_leftBy {k : Option (τ × ι)} (h : r ∈ leftBy stamp id rows k) : r ∈ rows := by
  cases k with
  | none => exact h
  | some k => exact (mem_rest.mp h).1

/-- The rows after a row that a cursor leaves are among those it leaves. -/
theorem rest_leftBy {k : Option (τ × ι)} (h : r ∈ leftBy stamp id rows k) :
    rest stamp id (stamp r, id r) (leftBy stamp id rows k) = rest stamp id (stamp r, id r) rows := by
  cases k with
  | none => rfl
  | some k =>
    show rest _ _ _ (rest _ _ _ _) = _
    unfold rest
    rw [List.filter_filter]
    apply List.filter_congr
    intro s _
    by_cases hs : Below stamp id (stamp r, id r) s
    · have hk : Below stamp id k s := by
        rcases (mem_rest.mp h).2 with hr | ⟨hr, hid⟩
        · rcases hs with hs | ⟨hs, -⟩
          · exact Or.inl (hs.trans hr)
          · exact Or.inl (hs.trans_lt hr)
        · rcases hs with hs | ⟨hs, hid'⟩
          · exact Or.inl (hs.trans_eq hr)
          · exact Or.inr ⟨hs.trans hr, hid'.trans hid⟩
      simp [hs, hk]
    · simp [hs]

variable {respond : Option γ → List ρ → Option γ → Prop} {encode : ρ → γ}
  {decode : γ → Option (τ × ι)}

/-- A service with the same answers pages alike. -/
theorem Keyset.congr {respond' : Option γ → List ρ → Option γ → Prop}
    (hk : Keyset respond stamp id n rows encode decode)
    (h : ∀ c items next, respond' c items next ↔ respond c items next) :
    Keyset respond' stamp id n rows encode decode where
  respond_iff c items next := (h c items next).trans (hk.respond_iff c items next)
  decode_encode := hk.decode_encode

/-- A next cursor is the position of the last row of a full page. -/
theorem Keyset.next_eq (hk : Keyset respond stamp id n rows encode decode) {c : Option γ}
    {items : List ρ} {c' : γ} (h : respond c items (some c')) :
    ∃ r, items.length = n ∧ items.getLast? = some r ∧ c' = encode r
      ∧ Answer stamp n (leftBy stamp id rows (c.bind decode)) items
      ∧ leftBy stamp id rows ((some c').bind decode)
        = rest stamp id (stamp r, id r) (leftBy stamp id rows (c.bind decode)) := by
  obtain ⟨hanswer, hnext⟩ := (hk.respond_iff c items (some c')).mp h
  split at hnext
  · next hfull =>
    obtain ⟨r, hlast, hr⟩ := Option.map_eq_some_iff.mp hnext.symm
    have hmem := hanswer.mem (List.mem_of_getLast? hlast)
    refine ⟨r, hfull, hlast, hr.symm, hanswer, ?_⟩
    rw [rest_leftBy hmem, ← hr, Option.bind_some, hk.decode_encode r (mem_leftBy hmem)]
    rfl
  · cases hnext

/-- **Following the cursors is the walk** over the rows. -/
theorem Keyset.follow_iff (hk : Keyset respond stamp id n rows encode decode) (hn : 0 < n)
    {c : Option γ} :
    Follow respond c pages ↔ Walk stamp id n (leftBy stamp id rows (c.bind decode)) pages := by
  constructor
  · intro h
    induction h with
    | @last c items answer =>
      obtain ⟨hanswer, hnext⟩ := (hk.respond_iff c items none).mp answer
      by_cases hfull : items.length = n
      · -- a full page has a last row, hence a next cursor
        have hne : items ≠ [] := List.ne_nil_of_length_pos (by omega)
        rw [if_pos hfull, List.getLast?_eq_some_getLast hne] at hnext
        cases hnext
      · exact .last hanswer hfull
    | next answer tail ih =>
      obtain ⟨r, hfull, hlast, -, hanswer, hleft⟩ := hk.next_eq answer
      rw [hleft] at ih
      exact .next hanswer hfull hlast ih
  · intro h
    generalize hrows : leftBy stamp id rows (c.bind decode) = left at h
    induction h generalizing c with
    | last answer short =>
      subst hrows
      exact .last ((hk.respond_iff _ _ _).mpr ⟨answer, (if_neg short).symm⟩)
    | @next left page r pages answer full cursor tail ih =>
      subst hrows
      have hanswer : respond c page (some (encode r)) :=
        (hk.respond_iff _ _ _).mpr ⟨answer, by rw [if_pos full, cursor, Option.map_some]⟩
      obtain ⟨r', -, hlast', -, -, hleft⟩ := hk.next_eq hanswer
      obtain rfl : r = r' := Option.some.inj (cursor.symm.trans hlast')
      exact .next hanswer (ih hleft)

/-- Each next cursor leaves fewer rows, so that the reader comes to an end. -/
theorem Keyset.not_endless (hk : Keyset respond stamp id n rows encode decode) :
    ¬ Endless respond := by
  rintro ⟨cursors, -, hnext⟩
  have hlt (i : Nat) : (leftBy stamp id rows ((cursors (i + 1)).bind decode)).length
      < (leftBy stamp id rows ((cursors i).bind decode)).length := by
    obtain ⟨items, next, hanswer, hcursor⟩ := hnext i
    obtain ⟨r, -, hlast, -, hpage, hleft⟩ := hk.next_eq hanswer
    rw [hcursor, hleft]
    exact length_rest_lt (hpage.mem (List.mem_of_getLast? hlast))
  have hsum (i : Nat) : (leftBy stamp id rows ((cursors i).bind decode)).length + i
      ≤ (leftBy stamp id rows ((cursors 0).bind decode)).length := by
    induction i with
    | zero => exact le_rfl
    | succ i ih =>
      have := hlt i
      omega
  have := hsum ((leftBy stamp id rows ((cursors 0).bind decode)).length + 1)
  omega

/-- **When a paged service is complete**: exactly when no page ends in a group of rows that share a
    stamp. -/
theorem Keyset.isComplete_iff (hk : Keyset respond stamp id n rows encode decode) (hn : 0 < n)
    (hids : (rows.map id).Nodup) :
    Complete respond rows ↔ NoTieAtPageEnd stamp id n rows := by
  rw [← walks_perm_iff hn hids]
  have hfollow (pages : List (List ρ)) : Follow respond none pages ↔ Walk stamp id n rows pages :=
    hk.follow_iff hn
  constructor
  · intro hcomplete pages hpages
    exact hcomplete.perm pages ((hfollow pages).mpr hpages)
  · intro hall
    obtain ⟨pages, hpages⟩ := exists_walk stamp id hn rows
    exact ⟨⟨pages, (hfollow pages).mpr hpages⟩, hk.not_endless,
      fun pages hpages => hall pages ((hfollow pages).mp hpages)⟩

end Cursors

end Rows

end Oecophylla.Lib
