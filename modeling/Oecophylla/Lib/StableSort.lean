import Mathlib.Data.List.Pairwise
import Mathlib.Data.List.Sort

namespace Oecophylla.Lib

/-!
# Library — stable sorting by a comparison function

Program code sorts by a comparison function (or by a key, which is a comparison function
too), and the sort it calls is stable.  `stableSort cmp` is such a sort; two stable sorts by
a consistent comparison agree, so that the choice of the algorithm does not matter.

* `stableSort_eq_iff` — two comparisons sort a list alike exactly when they agree on every
  pair of its entries, in the order the list has them;
* `pairwise_stableSort` / `stableSort_perm` — the result is sorted and a permutation;
* `pairwise_lt_stableSort` — without ties the result is strictly sorted;
* `mem_slice_stableSort_iff` — an entry is in a slice of the sorted list exactly when the number
  of the entries ahead of it is.

A comparison is *consistent* when it is an instance of `Std.TransCmp` (a total preorder).
-/

variable {α β : Type*}

/-- Stable sort by the comparison `cmp`: an entry is put before the later ones of the list
    that it does not exceed. -/
def stableSort (cmp : α → α → Ordering) (l : List α) : List α :=
  l.insertionSort fun a b => (cmp a b).isLE = true

/-- The first of the least entries. -/
def firstLeast (cmp : α → α → Ordering) (l : List α) : Option α := (stableSort cmp l).head?

/-- The comparison of the values a key takes. -/
def compareBy (cmp : β → β → Ordering) (key : α → β) (a b : α) : Ordering :=
  cmp (key a) (key b)

/-- Compare triples, the first components first. -/
def compareTriple {β₁ β₂ β₃ : Type*} (cmp₁ : β₁ → β₁ → Ordering) (cmp₂ : β₂ → β₂ → Ordering)
    (cmp₃ : β₃ → β₃ → Ordering) (a b : β₁ × β₂ × β₃) : Ordering :=
  (cmp₁ a.1 b.1).then ((cmp₂ a.2.1 b.2.1).then (cmp₃ a.2.2 b.2.2))

section Instances

variable {cmp : β → β → Ordering}

instance compareBy.orientedCmp [Std.OrientedCmp cmp] (key : α → β) :
    Std.OrientedCmp (compareBy cmp key) where
  eq_swap := by
    unfold compareBy
    exact Std.OrientedCmp.eq_swap

instance compareBy.transCmp [Std.TransCmp cmp] (key : α → β) :
    Std.TransCmp (compareBy cmp key) where
  isLE_trans := by
    unfold compareBy
    exact Std.TransCmp.isLE_trans

instance compareTriple.transCmp {β₁ β₂ β₃ : Type*} {cmp₁ : β₁ → β₁ → Ordering}
    {cmp₂ : β₂ → β₂ → Ordering} {cmp₃ : β₃ → β₃ → Ordering} [Std.TransCmp cmp₁]
    [Std.TransCmp cmp₂] [Std.TransCmp cmp₃] : Std.TransCmp (compareTriple cmp₁ cmp₂ cmp₃) :=
  inferInstanceAs (Std.TransCmp (compareLex (compareBy cmp₁ fun a : β₁ × β₂ × β₃ => a.1)
    (compareLex (compareBy cmp₂ fun a : β₁ × β₂ × β₃ => a.2.1) (compareBy cmp₃ fun a => a.2.2))))

/-- Triples whose last components differ are not tied. -/
theorem compareTriple_ne_eq {β₁ β₂ β₃ : Type*} {cmp₁ : β₁ → β₁ → Ordering}
    {cmp₂ : β₂ → β₂ → Ordering} {cmp₃ : β₃ → β₃ → Ordering} [Std.LawfulEqCmp cmp₃]
    {a b : β₁ × β₂ × β₃} (h : a.2.2 ≠ b.2.2) : compareTriple cmp₁ cmp₂ cmp₃ a b ≠ .eq := by
  unfold compareTriple
  intro heq
  rw [Ordering.then_eq_eq, Ordering.then_eq_eq] at heq
  exact h (Std.LawfulEqCmp.eq_of_compare heq.2.2)

instance isLE.total (cmp : β → β → Ordering) [Std.OrientedCmp cmp] :
    Std.Total fun a b => (cmp a b).isLE = true where
  total a b := by
    have hswap : cmp b a = (cmp a b).swap := Std.OrientedCmp.eq_swap
    rw [hswap]
    cases cmp a b <;> simp

instance isLE.isTrans (cmp : β → β → Ordering) [Std.TransCmp cmp] :
    IsTrans β fun a b => (cmp a b).isLE = true where
  trans _ _ _ := Std.TransCmp.isLE_trans

end Instances

variable {cmp cmp' : α → α → Ordering} {l : List α}

@[simp] theorem stableSort_nil : stableSort cmp [] = [] := rfl

theorem stableSort_perm (cmp : α → α → Ordering) (l : List α) : (stableSort cmp l).Perm l :=
  List.perm_insertionSort _ l

@[simp] theorem mem_stableSort {a : α} : a ∈ stableSort cmp l ↔ a ∈ l :=
  List.mem_insertionSort _

/-- The first of the least entries is an entry. -/
theorem firstLeast_mem {a : α} (h : firstLeast cmp l = some a) : a ∈ l :=
  mem_stableSort.mp (List.mem_of_mem_head? h)

@[simp] theorem length_stableSort : (stableSort cmp l).length = l.length :=
  List.length_insertionSort _ l

theorem pairwise_stableSort (cmp : α → α → Ordering) [Std.TransCmp cmp] (l : List α) :
    (stableSort cmp l).Pairwise fun a b => (cmp a b).isLE = true :=
  List.pairwise_insertionSort _ l

/-- The first of the least entries does not exceed any entry. -/
theorem firstLeast_le [Std.TransCmp cmp] {a b : α} (h : firstLeast cmp l = some a) (hb : b ∈ l) :
    (cmp a b).isLE = true := by
  have hsorted := pairwise_stableSort cmp l
  have hmem : b ∈ stableSort cmp l := mem_stableSort.mpr hb
  unfold firstLeast at h
  cases hl : stableSort cmp l with
  | nil => simp [hl] at h
  | cons c rest =>
    rw [hl] at h hsorted hmem
    obtain rfl : c = a := by simpa using h
    rcases List.mem_cons.mp hmem with rfl | hrest
    · have hself : cmp b b = .eq := Std.ReflCmp.compare_self
      rw [hself]
      rfl
    · exact (List.pairwise_cons.mp hsorted).1 b hrest

theorem firstLeast_isSome (cmp : α → α → Ordering) {a : α} (h : a ∈ l) :
    (firstLeast cmp l).isSome := by
  unfold firstLeast
  rw [List.isSome_head?]
  exact List.ne_nil_of_mem (mem_stableSort.mpr h)

/-- Of tied entries the first in the list comes first. -/
theorem firstLeast_cons {a : α} (h : ∀ b ∈ l, (cmp a b).isLE = true) :
    firstLeast cmp (a :: l) = some a := by
  have hcons : stableSort cmp (a :: l)
      = (stableSort cmp l).orderedInsert (fun a b => (cmp a b).isLE = true) a := rfl
  unfold firstLeast
  rw [hcons]
  cases hl : stableSort cmp l with
  | nil => rfl
  | cons b rest =>
    have hb : b ∈ l := mem_stableSort.mp (hl ▸ List.mem_cons_self)
    rw [List.orderedInsert_cons, if_pos (h b hb)]
    rfl

/-- An entry stands before a later one in the sorted list exactly when it does not exceed
    it: this is stability. -/
theorem pair_sublist_stableSort [Std.TransCmp cmp] {a b : α} (hab : [a, b].Sublist l) :
    [a, b].Sublist (stableSort cmp l) ↔ (cmp a b).isLE = true := by
  constructor
  · intro hsub
    have hsorted := (pairwise_stableSort cmp l).sublist hsub
    simpa using hsorted
  · intro hle
    exact List.pair_sublist_insertionSort hle hab

/-- Inserting looks only at the comparisons of the new entry with the old ones. -/
private theorem orderedInsert_congr {r r' : α → α → Prop} [DecidableRel r] [DecidableRel r']
    {a : α} (h : ∀ b ∈ l, r a b ↔ r' a b) : l.orderedInsert r a = l.orderedInsert r' a := by
  induction l with
  | nil => rfl
  | cons b l ih =>
    have hb : r a b ↔ r' a b := h b (by simp)
    have ih' := ih fun c hc => h c (by simp [hc])
    simp only [List.orderedInsert_cons, hb, ih']

/-- Comparisons that agree on the pairs of the list, in list order, sort it alike. -/
theorem stableSort_congr (h : l.Pairwise fun a b => (cmp a b).isLE = (cmp' a b).isLE) :
    stableSort cmp l = stableSort cmp' l := by
  induction l with
  | nil => rfl
  | cons a l ih =>
    obtain ⟨ha, hl⟩ := List.pairwise_cons.mp h
    have ih' : l.insertionSort (fun a b => (cmp a b).isLE = true)
        = l.insertionSort fun a b => (cmp' a b).isLE = true := ih hl
    simp only [stableSort, List.insertionSort_cons, ih']
    refine orderedInsert_congr fun b hb => ?_
    rw [ha b ((List.mem_insertionSort _).mp hb)]

/-- Sorting by the comparison of the images. -/
theorem stableSort_map (g : β → α) (l : List β) :
    stableSort cmp (l.map g) = (stableSort (fun a b => cmp (g a) (g b)) l).map g :=
  (List.map_insertionSort _ _ g l fun _ _ _ _ => Iff.rfl).symm

/-- **Agreement of two sorts.**  Two consistent comparisons sort a list alike exactly when
    they agree on every pair of its entries, taken in list order. -/
theorem stableSort_eq_iff [Std.TransCmp cmp] [Std.TransCmp cmp'] :
    stableSort cmp l = stableSort cmp' l
      ↔ l.Pairwise fun a b => (cmp a b).isLE = (cmp' a b).isLE := by
  refine ⟨fun heq => ?_, stableSort_congr⟩
  rw [List.pairwise_iff_forall_sublist]
  intro a b hab
  rw [Bool.eq_iff_iff, ← pair_sublist_stableSort hab, heq, pair_sublist_stableSort hab]

private theorem eq_of_map_eq {f : α → β} {l l' : List α}
    (hinj : ∀ a ∈ l, ∀ b ∈ l', f a = f b → a = b) (h : l.map f = l'.map f) : l = l' := by
  induction l generalizing l' with
  | nil => simpa using h.symm
  | cons a l ih =>
    cases l' with
    | nil => simp at h
    | cons b l' =>
      rw [List.map_cons, List.map_cons, List.cons.injEq] at h
      have hab : a = b := hinj a (by simp) b (by simp) h.1
      have hrest : l = l' := ih (fun x hx y hy => hinj x (by simp [hx]) y (by simp [hy])) h.2
      rw [hab, hrest]

/-- Sorted lists are compared by an image that tells their entries apart. -/
theorem map_stableSort_eq_iff {f : α → β} (hnodup : (l.map f).Nodup) :
    (stableSort cmp l).map f = (stableSort cmp' l).map f
      ↔ stableSort cmp l = stableSort cmp' l := by
  refine ⟨eq_of_map_eq fun a ha b hb => ?_, congrArg _⟩
  exact List.inj_on_of_nodup_map hnodup (mem_stableSort.mp ha) (mem_stableSort.mp hb)

/-- Without ties the sorted list is strictly sorted. -/
theorem pairwise_lt_stableSort [Std.TransCmp cmp] (hne : l.Pairwise fun a b => cmp a b ≠ .eq) :
    (stableSort cmp l).Pairwise fun a b => cmp a b = .lt := by
  have hne' := (stableSort_perm cmp l).symm.pairwise hne
    fun h h' => h (Std.OrientedCmp.eq_symm h')
  refine ((pairwise_stableSort cmp l).and hne').imp ?_
  rintro a b ⟨hle, hab⟩
  cases h : cmp a b <;> simp_all

/-- Strictly sorted lists with the same entries are equal. -/
theorem eq_of_perm_of_lt [Std.TransCmp cmp] {l' : List α} (hperm : l.Perm l')
    (hsorted : l.Pairwise fun a b => cmp a b = .lt)
    (hsorted' : l'.Pairwise fun a b => cmp a b = .lt) : l = l' := by
  refine List.Perm.eq_of_pairwise ?_ hsorted hsorted' hperm
  intro a b _ _ hab hba
  rw [Std.OrientedCmp.gt_of_lt hba] at hab
  simp at hab

/-- Without ties the order of the input does not matter. -/
theorem stableSort_eq_of_perm [Std.TransCmp cmp] {l' : List α} (hperm : l.Perm l')
    (hne : l.Pairwise fun a b => cmp a b ≠ .eq) : stableSort cmp l = stableSort cmp l' := by
  have hne' : l'.Pairwise fun a b => cmp a b ≠ .eq :=
    hperm.pairwise hne fun h h' => h (Std.OrientedCmp.eq_symm h')
  have hperm' : (stableSort cmp l).Perm (stableSort cmp l') :=
    (stableSort_perm cmp l).trans (hperm.trans (stableSort_perm cmp l').symm)
  exact eq_of_perm_of_lt hperm' (pairwise_lt_stableSort hne) (pairwise_lt_stableSort hne')

/-- A strictly sorted list stays as it is. -/
theorem stableSort_eq_self [Std.TransCmp cmp] (h : l.Pairwise fun a b => cmp a b = .lt) :
    stableSort cmp l = l := by
  have hne : l.Pairwise fun a b => cmp a b ≠ .eq := h.imp fun hlt => by simp [hlt]
  exact eq_of_perm_of_lt (stableSort_perm cmp l) (pairwise_lt_stableSort hne) h

/-- Without ties the descending order is the ascending one backwards. -/
theorem stableSort_swap [Std.TransCmp cmp] (hne : l.Pairwise fun a b => cmp a b ≠ .eq) :
    stableSort (fun a b => cmp b a) l = (stableSort cmp l).reverse := by
  have hne' : l.Pairwise fun a b => cmp b a ≠ .eq :=
    hne.imp fun h heq => h (Std.OrientedCmp.eq_symm heq)
  have hperm : (stableSort (fun a b => cmp b a) l).Perm (stableSort cmp l).reverse :=
    (stableSort_perm _ l).trans ((stableSort_perm cmp l).symm.trans (List.reverse_perm _).symm)
  refine eq_of_perm_of_lt hperm (pairwise_lt_stableSort hne') ?_
  rw [List.pairwise_reverse]
  exact pairwise_lt_stableSort hne

/-- Without ties, what comes first is the entry that does not exceed any other. -/
theorem firstLeast_eq_some_iff [Std.TransCmp cmp] (hne : l.Pairwise fun a b => cmp a b ≠ .eq)
    {a : α} : firstLeast cmp l = some a ↔ a ∈ l ∧ ∀ b ∈ l, (cmp a b).isLE = true := by
  refine ⟨fun h => ⟨firstLeast_mem h, fun b hb => firstLeast_le h hb⟩, fun ⟨ha, hle⟩ => ?_⟩
  obtain ⟨b, hb⟩ := Option.isSome_iff_exists.mp (firstLeast_isSome cmp ha)
  have hab := hle b (firstLeast_mem hb)
  have hba := firstLeast_le hb ha
  have htied : cmp a b = .eq := Std.OrientedCmp.isLE_antisymm hab hba
  by_contra hother
  rw [hb, Option.some.injEq] at hother
  have hsymm : Std.Symm fun a b => cmp a b ≠ .eq :=
    ⟨fun _ _ h heq => h (Std.OrientedCmp.eq_symm heq)⟩
  exact hne.forall ha (firstLeast_mem hb) (Ne.symm hother) htied

/-- Without ties the order of the input does not matter for what comes first. -/
theorem firstLeast_eq_of_perm [Std.TransCmp cmp] {l' : List α} (hperm : l.Perm l')
    (hne : l.Pairwise fun a b => cmp a b ≠ .eq) : firstLeast cmp l = firstLeast cmp l' := by
  unfold firstLeast
  rw [stableSort_eq_of_perm hperm hne]

/-- Inserting an entry of a part into the part. -/
private theorem filter_orderedInsert [Std.TransCmp cmp] (p : α → Bool) {a : α} (ha : p a = true)
    (hsorted : l.Pairwise fun a b => (cmp a b).isLE = true) :
    (l.orderedInsert (fun a b => (cmp a b).isLE = true) a).filter p
      = (l.filter p).orderedInsert (fun a b => (cmp a b).isLE = true) a := by
  induction l with
  | nil => simp [ha]
  | cons b l ih =>
    obtain ⟨hb, hl⟩ := List.pairwise_cons.mp hsorted
    rw [List.orderedInsert_cons]
    by_cases hle : (cmp a b).isLE = true
    · -- the entry is below everything that follows
      have hbelow : ∀ c ∈ (b :: l).filter p, (cmp a c).isLE = true := by
        intro c hc
        rcases List.mem_cons.mp (List.mem_of_mem_filter hc) with rfl | hcl
        · exact hle
        · exact Std.TransCmp.isLE_trans hle (hb c hcl)
      rw [if_pos hle, List.filter_cons_of_pos ha]
      cases hfilter : (b :: l).filter p with
      | nil => rfl
      | cons c l' =>
        rw [List.orderedInsert_cons, if_pos (hbelow c (by simp [hfilter]))]
    · rw [if_neg hle]
      by_cases hpb : p b = true
      · rw [List.filter_cons_of_pos hpb, List.filter_cons_of_pos hpb, List.orderedInsert_cons,
          if_neg hle, ih hl]
      · rw [List.filter_cons_of_neg hpb, List.filter_cons_of_neg hpb, ih hl]

private theorem filter_orderedInsert_of_neg (p : α → Bool) {a : α} (ha : ¬ p a = true)
    (l : List α) :
    (l.orderedInsert (fun a b => (cmp a b).isLE = true) a).filter p = l.filter p := by
  induction l with
  | nil => simp [ha]
  | cons b l ih =>
    rw [List.orderedInsert_cons]
    split
    · rw [List.filter_cons_of_neg ha]
    · rw [List.filter_cons, List.filter_cons, ih]

/-- A part of the list is sorted as it stands in the whole. -/
theorem filter_stableSort [Std.TransCmp cmp] (p : α → Bool) (l : List α) :
    (stableSort cmp l).filter p = stableSort cmp (l.filter p) := by
  induction l with
  | nil => rfl
  | cons a l ih =>
    have hcons : ∀ l : List α, stableSort cmp (a :: l)
        = (stableSort cmp l).orderedInsert (fun a b => (cmp a b).isLE = true) a := fun _ => rfl
    by_cases ha : p a = true
    · rw [List.filter_cons_of_pos ha, hcons, hcons, ← ih]
      exact filter_orderedInsert p ha (pairwise_stableSort cmp l)
    · rw [List.filter_cons_of_neg ha, hcons, filter_orderedInsert_of_neg p ha, ih]

/-- A part of the list whose entries are all tied keeps its order. -/
theorem filter_stableSort_of_ties [Std.TransCmp cmp] (p : α → Bool)
    (hties : ∀ a ∈ l, ∀ b ∈ l, p a = true → p b = true → (cmp a b).isLE = true) :
    (stableSort cmp l).filter p = l.filter p := by
  have hpairwise : (l.filter p).Pairwise fun a b => (cmp a b).isLE = true := by
    apply List.pairwise_of_forall_mem_list
    intro a ha b hb
    obtain ⟨hal, hpa⟩ := List.mem_filter.mp ha
    obtain ⟨hbl, hpb⟩ := List.mem_filter.mp hb
    exact hties a hal b hbl hpa hpb
  have hsub : (l.filter p).Sublist (stableSort cmp l) :=
    List.sublist_insertionSort hpairwise List.filter_sublist
  have hsub' := hsub.filter p
  rw [List.filter_filter] at hsub'
  simp only [Bool.and_self] at hsub'
  -- both parts have the same length
  exact (hsub'.eq_of_length (((stableSort_perm cmp l).filter p).length_eq).symm).symm

/-! ### Slices -/

/-- The entries of a slice are those at its positions. -/
theorem mem_slice_iff {m n : Nat} {x : α} :
    x ∈ (l.take n).drop m ↔ ∃ i, m ≤ i ∧ i < n ∧ l[i]? = some x := by
  rw [List.mem_iff_getElem?]
  simp only [List.getElem?_drop, List.getElem?_take]
  constructor
  · rintro ⟨i, hi⟩
    split at hi
    · next hlt => exact ⟨m + i, by omega, hlt, hi⟩
    · nomatch hi
  · rintro ⟨i, hm, hn, hi⟩
    refine ⟨i - m, ?_⟩
    have hadd : m + (i - m) = i := by omega
    rw [hadd, if_pos hn]
    exact hi

/-- In a strictly sorted list the position of an entry is the number of the entries below it. -/
theorem countP_lt_getElem [Std.TransCmp cmp] (hsorted : l.Pairwise fun a b => cmp a b = .lt)
    (i : Nat) (hi : i < l.length) : l.countP (fun y => cmp y l[i] == .lt) = i := by
  induction l generalizing i with
  | nil => simp at hi
  | cons a l ih =>
    obtain ⟨ha, hl⟩ := List.pairwise_cons.mp hsorted
    cases i with
    | zero =>
      have hnone : ∀ y ∈ a :: l, ¬ (cmp y a == .lt) = true := by
        intro y hy
        rcases List.mem_cons.mp hy with rfl | hy
        · simp [Std.ReflCmp.compare_self]
        · simp [Std.OrientedCmp.gt_of_lt (ha y hy)]
      exact List.countP_eq_zero.mpr hnone
    | succ i =>
      have hi' : i < l.length := by simpa using hi
      have hlt : cmp a l[i] = .lt := ha _ (List.getElem_mem hi')
      show (a :: l).countP (fun y => cmp y l[i] == .lt) = i + 1
      rw [List.countP_cons_of_pos (by simp [hlt]), ih hl i hi']

/-- The order of the sorted list: ties are broken by `pos`, the place in the list. -/
def compareAt (cmp : α → α → Ordering) (pos : α → Nat) : α → α → Ordering :=
  compareLex cmp (compareBy compare pos)

instance compareAt.transCmp [Std.TransCmp cmp] (pos : α → Nat) :
    Std.TransCmp (compareAt cmp pos) :=
  inferInstanceAs (Std.TransCmp (compareLex cmp (compareBy compare pos)))

/-- A stable sort is a sort by the comparison and the places. -/
theorem stableSort_eq_compareAt {pos : α → Nat} (hpos : l.Pairwise fun a b => pos a < pos b) :
    stableSort cmp l = stableSort (compareAt cmp pos) l := by
  apply stableSort_congr
  apply hpos.imp
  intro a b hab
  have hlt : compare (pos a) (pos b) = .lt := Nat.compare_eq_lt.mpr hab
  unfold compareAt compareLex compareBy
  rw [hlt]
  cases cmp a b <;> rfl

/-- **Slices of a sorted list.**  An entry is in the slice from `m` to `n` exactly when the number
    of the entries ahead of it is. -/
theorem mem_slice_stableSort_iff [Std.TransCmp cmp] {pos : α → Nat}
    (hpos : l.Pairwise fun a b => pos a < pos b) {m n : Nat} {x : α} :
    x ∈ ((stableSort cmp l).take n).drop m
      ↔ x ∈ l ∧ m ≤ l.countP (fun y => compareAt cmp pos y x == .lt)
        ∧ l.countP (fun y => compareAt cmp pos y x == .lt) < n := by
  have hties : l.Pairwise fun a b => compareAt cmp pos a b ≠ .eq := by
    apply hpos.imp
    intro a b hab heq
    unfold compareAt compareLex compareBy at heq
    rw [Ordering.then_eq_eq, Nat.compare_eq_eq] at heq
    omega
  have hcount : ∀ x, l.countP (fun y => compareAt cmp pos y x == .lt)
      = (stableSort cmp l).countP (fun y => compareAt cmp pos y x == .lt) := fun x =>
    ((stableSort_perm cmp l).countP_eq _).symm
  have hsorted : (stableSort cmp l).Pairwise fun a b => compareAt cmp pos a b = .lt := by
    rw [stableSort_eq_compareAt hpos]
    exact pairwise_lt_stableSort hties
  rw [mem_slice_iff, hcount, ← @mem_stableSort _ cmp]
  constructor
  · rintro ⟨i, hm, hn, hi⟩
    obtain ⟨hlt, rfl⟩ := List.getElem?_eq_some_iff.mp hi
    rw [countP_lt_getElem hsorted]
    exact ⟨List.getElem_mem hlt, hm, hn⟩
  · rintro ⟨hx, hm, hn⟩
    obtain ⟨i, hlt, rfl⟩ := List.getElem_of_mem hx
    rw [countP_lt_getElem hsorted] at hm hn
    exact ⟨i, hm, hn, List.getElem?_eq_getElem hlt⟩

end Oecophylla.Lib
