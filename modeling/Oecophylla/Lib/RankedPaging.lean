import Mathlib.Logic.Equiv.Basic
import Oecophylla.Lib.Slices

namespace Oecophylla.Lib

/-!
# Library — a list in one order, a cursor in another

The rows of a page are taken in the order of a rank, and the cursor of a page is another key of its
last row: the next page has the rows behind that key, again in the order of the rank.

* `CutAt` — the row at a position separates the rows by both alike;
* `Cuts` — so do the last rows of all full pages;
* `RankedKeyset.completeByRank_iff` — a reader sees every row exactly once, in the order of the rank,
  exactly when they do.
-/

section Ranked

variable {γ ρ τ κ : Type*} [LinearOrder τ] [LinearOrder κ]

/-- The row is the `n`-th by rank, and every other row is ahead of it in both orders or behind it in
    both. -/
def CutAt (rank : ρ → τ) (key : ρ → κ) (n : Nat) (rows : List ρ) (p : ρ) : Prop :=
  rows.countP (fun x => rank p < rank x) + 1 = n
    ∧ ∀ x ∈ rows, key x ≠ key p → rank p < rank x ∧ key p < key x ∨ rank x < rank p ∧ key x < key p

instance (rank : ρ → τ) (key : ρ → κ) (n : Nat) (rows : List ρ) (p : ρ) :
    Decidable (CutAt rank key n rows p) :=
  inferInstanceAs (Decidable (_ ∧ _))

/-- At the end of each full page there is a row that cuts. -/
def Cuts (rank : ρ → τ) (key : ρ → κ) (n : Nat) (rows : List ρ) : Prop :=
  ∀ page, (page + 1) * n ≤ rows.length → ∃ p ∈ rows, CutAt rank key ((page + 1) * n) rows p

/-- A service that orders its rows by rank, whatever order it gives to tied ones, and goes on behind
    the key of the last row of a full page. -/
structure RankedKeyset (respond : Option γ → List ρ → Option γ → Prop) (rank : ρ → τ) (key : ρ → κ)
    (n : Nat) (rows : List ρ) (encode : ρ → γ) (decode : γ → Option κ) : Prop where
  respond_iff (c : Option γ) (items : List ρ) (next : Option γ) : respond c items next
    ↔ Answer rank n (behind key rows (c.bind decode)) items
      ∧ next = if items.length = n then items.getLast?.map encode else none
  decode_encode (r : ρ) : r ∈ rows → decode (encode r) = some (key r)

/-- A reader sees every row exactly once, the ranks do not increase from the first page to the last,
    and the reader comes to an end. -/
structure CompleteByRank (respond : Option γ → List ρ → Option γ → Prop) (rank : ρ → τ)
    (rows : List ρ) : Prop extends Complete respond rows where
  sorted (pages : List (List ρ)) : Follow respond none pages →
    pages.flatten.Pairwise fun a b => rank b ≤ rank a

variable {rank : ρ → τ} {key : ρ → κ} {n : Nat} {rows page : List ρ} {p : ρ}

theorem mem_behind {k : Option κ} {r : ρ} : r ∈ behind key rows k ↔ r ∈ rows ∧ ∀ k' ∈ k, key r < k' := by
  rw [behind, List.mem_filter, decide_eq_true_iff]

/-- What is behind a row that is left is behind it in all rows. -/
theorem behind_behind {k : Option κ} (hp : p ∈ behind key rows k) :
    behind key (behind key rows k) (some (key p)) = behind key rows (some (key p)) := by
  have hk := (mem_behind.mp hp).2
  unfold behind
  rw [List.filter_filter]
  apply List.filter_congr
  intro r _
  by_cases hr : key r < key p
  · have hboth : ∀ k' ∈ k, key r < k' := fun k' hk' => hr.trans (hk k' hk')
    simpa [hr] using hboth
  · simp [hr]

/-- The answer of a list that is read in an order of its own. -/
theorem answer_of_pairwise {l : List ρ} (hperm : l.Perm rows)
    (hsorted : l.Pairwise fun a b => rank b ≤ rank a) : Answer rank n rows (l.take n) :=
  ⟨l, hperm, hsorted, rfl⟩

/-! ### A row that cuts -/

section Cut

variable (hkeys : (rows.map key).Nodup)

include hkeys

omit [LinearOrder κ] in
/-- A row is known by its key. -/
theorem eq_of_key {x : ρ} (hx : x ∈ rows) (hp : p ∈ rows) (h : key x = key p) : x = p :=
  List.inj_on_of_nodup_map hkeys hx hp h

/-- The rows ahead of a row that cuts, and those behind it. -/
theorem CutAt.split (hp : p ∈ rows) (hcut : CutAt rank key n rows p) :
    ∃ front, (front ++ p :: behind key rows (some (key p))).Perm rows ∧ front.length + 1 = n
      ∧ (∀ x ∈ front, rank p < rank x ∧ key p < key x)
      ∧ ∀ x ∈ behind key rows (some (key p)), rank x < rank p ∧ key x < key p := by
  obtain ⟨hcount, htrichotomy⟩ := hcut
  have hfront : ∀ x ∈ rows.filter (fun x => rank p < rank x), rank p < rank x ∧ key p < key x := by
    intro x hx
    obtain ⟨hmem, hrank⟩ := List.mem_filter.mp hx
    rw [decide_eq_true_iff] at hrank
    have hne : key x ≠ key p := by
      intro heq
      rw [eq_of_key hkeys hmem hp heq] at hrank
      exact lt_irrefl _ hrank
    rcases htrichotomy x hmem hne with h | ⟨h, -⟩
    · exact h
    · exact absurd h (lt_asymm hrank)
  have hbehind : ∀ x ∈ behind key rows (some (key p)), rank x < rank p ∧ key x < key p := by
    intro x hx
    obtain ⟨hmem, hkey⟩ := mem_behind.mp hx
    have hlt : key x < key p := hkey _ rfl
    rcases htrichotomy x hmem hlt.ne with ⟨-, h⟩ | h
    · exact absurd h (lt_asymm hlt)
    · exact h
  refine ⟨rows.filter fun x => rank p < rank x, ?_, ?_, hfront, hbehind⟩
  · have hnodup : rows.Nodup := hkeys.of_map
    refine (List.perm_ext_iff_of_nodup ?_ hnodup).mpr fun x => ?_
    · -- the three parts have different keys
      refine List.nodup_append.mpr ⟨hnodup.filter _, List.nodup_cons.mpr ⟨fun h => ?_, hnodup.filter _⟩,
        fun a ha b hb => ?_⟩
      · exact lt_irrefl _ (hbehind p h).2
      · have halt := (hfront a ha).2
        rintro rfl
        rcases List.mem_cons.mp hb with rfl | hb
        · exact lt_irrefl _ halt
        · exact lt_asymm halt (hbehind a hb).2
    · rw [List.mem_append, List.mem_cons]
      refine ⟨?_, fun hx => ?_⟩
      · rintro (hx | rfl | hx)
        · exact List.mem_of_mem_filter hx
        · exact hp
        · exact (mem_behind.mp hx).1
      · by_cases hkey : key x = key p
        · exact Or.inr (Or.inl (eq_of_key hkeys hx hp hkey))
        · rcases htrichotomy x hx hkey with ⟨h, -⟩ | ⟨-, h⟩
          · exact Or.inl (List.mem_filter.mpr ⟨hx, by simpa using h⟩)
          · exact Or.inr (Or.inr (mem_behind.mpr ⟨hx, by simpa using h⟩))
  · rw [← List.countP_eq_length_filter]
    exact hcount

/-- A full page ends with the row that cuts. -/
theorem CutAt.answer (hp : p ∈ rows) (hcut : CutAt rank key n rows p) (h : Answer rank n rows page) :
    page.getLast? = some p ∧ page.length = n
      ∧ (page ++ behind key rows (some (key p))).Perm rows
      ∧ ∀ x ∈ page, rank p ≤ rank x := by
  obtain ⟨l, hperm, hsorted, rfl⟩ := h
  obtain ⟨init, tail, rfl⟩ := List.append_of_mem (hperm.mem_iff.mpr hp)
  have hnodup : (init ++ p :: tail).Nodup := hperm.nodup_iff.mpr hkeys.of_map
  obtain ⟨-, hback, hcross⟩ := List.pairwise_append.mp hsorted
  -- no other row has the rank of the row that cuts
  have hrank {x : ρ} (hx : x ∈ rows) (hne : x ≠ p) : rank x ≠ rank p := by
    have hkey : key x ≠ key p := fun heq => hne (eq_of_key hkeys hx hp heq)
    rcases hcut.2 x hx hkey with ⟨h, -⟩ | ⟨h, -⟩
    · exact h.ne'
    · exact h.ne
  have hinit : ∀ x ∈ init, rank p < rank x := by
    intro x hx
    have hne : x ≠ p := (List.nodup_append.mp hnodup).2.2 x hx p List.mem_cons_self
    have hmem : x ∈ rows := hperm.mem_iff.mp (List.mem_append_left _ hx)
    exact lt_of_le_of_ne (hcross x hx p List.mem_cons_self) (hrank hmem hne).symm
  have htail : ∀ x ∈ tail, rank x < rank p := by
    intro x hx
    have hne : x ≠ p := by
      rintro rfl
      exact (List.nodup_cons.mp (List.nodup_append.mp hnodup).2.1).1 hx
    have hmem : x ∈ rows := hperm.mem_iff.mp (List.mem_append_right _ (List.mem_cons_of_mem _ hx))
    exact lt_of_le_of_ne ((List.pairwise_cons.mp hback).1 x hx) (hrank hmem hne)
  have hlength : init.length + 1 = n := by
    rw [← hcut.1, ← hperm.countP_eq, List.countP_append, List.countP_cons_of_neg (by simp)]
    rw [List.countP_eq_length.mpr fun x hx => by simpa using hinit x hx,
      List.countP_eq_zero.mpr fun x hx => by simpa using (htail x hx).le, Nat.add_zero]
  have hpage : (init ++ p :: tail).take n = init ++ [p] := by
    have hsplit : init ++ p :: tail = (init ++ [p]) ++ tail := by simp
    rw [hsplit, List.take_left' (by simpa using hlength)]
  have hkeep : behind key (init ++ p :: tail) (some (key p)) = tail := by
    unfold behind
    have hnone : init.filter (fun x => ∀ k ∈ some (key p), key x < k) = [] := by
      apply List.filter_eq_nil_iff.mpr
      intro x hx
      have hmem : x ∈ rows := hperm.mem_iff.mp (List.mem_append_left _ hx)
      have hne : key x ≠ key p := fun heq =>
        (hinit x hx).ne (by rw [eq_of_key hkeys hmem hp heq])
      rcases hcut.2 x hmem hne with ⟨-, h⟩ | ⟨h, -⟩
      · simpa using h.le
      · exact absurd h (lt_asymm (hinit x hx))
    have hall : tail.filter (fun x => ∀ k ∈ some (key p), key x < k) = tail := by
      apply List.filter_eq_self.mpr
      intro x hx
      have hmem : x ∈ rows := hperm.mem_iff.mp (List.mem_append_right _ (List.mem_cons_of_mem _ hx))
      have hne : key x ≠ key p := fun heq =>
        (htail x hx).ne (by rw [eq_of_key hkeys hmem hp heq])
      rcases hcut.2 x hmem hne with ⟨h, -⟩ | ⟨-, h⟩
      · exact absurd h (lt_asymm (htail x hx))
      · simpa using h
    rw [List.filter_append, hnone, List.nil_append, List.filter_cons_of_neg (by simp), hall]
  have hbehind : (behind key rows (some (key p))).Perm tail := by
    rw [← hkeep]
    exact (hperm.filter _).symm
  rw [hpage]
  refine ⟨by simp, by simpa using hlength, ?_, fun x hx => ?_⟩
  · rw [List.append_assoc, List.singleton_append]
    exact ((hbehind.cons p).append_left init).trans hperm
  · rcases List.mem_append.mp hx with hx | hx
    · exact (hinit x hx).le
    · rw [List.mem_singleton.mp hx]

/-- After a page that ends with a row that cuts, the condition is the one on the rows behind it. -/
theorem CutAt.cuts_iff (hn : 0 < n) (hp : p ∈ rows) (hcut : CutAt rank key n rows p) :
    Cuts rank key n rows ↔ Cuts rank key n (behind key rows (some (key p))) := by
  obtain ⟨front, hperm, hlength, hfront, hbehind⟩ := hcut.split hkeys hp
  set rest := behind key rows (some (key p)) with hrest
  have htotal : rows.length = n + rest.length := by
    rw [← hperm.length_eq, List.length_append, List.length_cons]
    omega
  -- a row behind has `n` rows more ahead of it
  have hcount {q : ρ} (hq : q ∈ rest) :
      rows.countP (fun x => rank q < rank x) = n + rest.countP fun x => rank q < rank x := by
    have hlt := (hbehind q hq).1
    rw [← hperm.countP_eq, List.countP_append, List.countP_cons_of_pos (by simpa using hlt),
      List.countP_eq_length.mpr fun x hx => by simpa using hlt.trans (hfront x hx).1]
    omega
  have hiff {q : ρ} (hq : q ∈ rest) (m : Nat) :
      CutAt rank key (n + m) rows q ↔ CutAt rank key m rest q := by
    unfold CutAt
    rw [hcount hq, Nat.add_assoc, Nat.add_left_cancel_iff]
    refine and_congr_right fun _ => ⟨fun h x hx => h x (hperm.mem_iff.mp (by simp [hx])), fun h x hx => ?_⟩
    intro hne
    obtain ⟨hrank, hkey⟩ := hbehind q hq
    rcases List.mem_append.mp (hperm.mem_iff.mpr hx) with hx | hx
    · exact Or.inl ⟨hrank.trans (hfront x hx).1, hkey.trans (hfront x hx).2⟩
    · rcases List.mem_cons.mp hx with rfl | hx
      · exact Or.inl ⟨hrank, hkey⟩
      · exact h x hx hne
  have hsize (page : Nat) : (page + 1 + 1) * n = n + (page + 1) * n := by
    rw [Nat.succ_mul, Nat.add_comm]
  refine ⟨fun h page hpage => ?_, fun h page hpage => ?_⟩
  · obtain ⟨q, hq, hcutq⟩ := h (page + 1) (by rw [hsize, htotal]; omega)
    have hqrest : q ∈ rest := by
      rcases List.mem_append.mp (hperm.mem_iff.mpr hq) with hqf | hqp
      · -- too few rows are ahead of it
        exfalso
        have hle : rows.countP (fun x => rank q < rank x) ≤ rows.countP fun x => rank p < rank x :=
          List.countP_mono_left fun x _ hx => by
            simpa using (hfront q hqf).1.trans (of_decide_eq_true hx)
        have hmul : n ≤ (page + 1) * n := Nat.le_mul_of_pos_left _ (Nat.succ_pos _)
        have h1 := hcut.1
        have h2 := hcutq.1
        rw [hsize] at h2
        omega
      · rcases List.mem_cons.mp hqp with rfl | hqr
        · exfalso
          have h1 := hcut.1
          have h2 := hcutq.1
          have hmul : n ≤ (page + 1) * n := Nat.le_mul_of_pos_left _ (Nat.succ_pos _)
          rw [hsize] at h2
          omega
        · exact hqr
    rw [hsize] at hcutq
    exact ⟨q, hqrest, (hiff hqrest _).mp hcutq⟩
  · cases page with
    | zero =>
      rw [Nat.zero_add, Nat.one_mul]
      exact ⟨p, hp, hcut⟩
    | succ page =>
      obtain ⟨q, hq, hcutq⟩ := h page (by rw [hsize, htotal] at hpage; omega)
      refine ⟨q, (mem_behind.mp hq).1, ?_⟩
      rw [hsize]
      exact (hiff hq _).mpr hcutq

/-- Where the rows behind the last row of every full page are the rows that the page leaves out, the
    last row cuts. -/
theorem cutAt_of_exact
    (hexact : ∀ page p, Answer rank n rows page → page.length = n → page.getLast? = some p →
      ∀ x ∈ rows, x ∉ page ↔ key x < key p)
    (h : Answer rank n rows page) (hfull : page.length = n) (hlast : page.getLast? = some p) :
    CutAt rank key n rows p := by
  classical
  have hcut := hexact page p h hfull hlast
  have hp : p ∈ page := List.mem_of_getLast? hlast
  obtain ⟨left, hperm, hsorted, htake⟩ := h.split
  have hnodup : (page ++ left).Nodup := hperm.nodup_iff.mpr hkeys.of_map
  have hprow : p ∈ rows := h.mem hp
  obtain ⟨hpage, -, hcross⟩ := List.pairwise_append.mp hsorted
  -- a row of the same rank could stand in the place of the last one
  have halone {q : ρ} (hq : q ∈ rows) (hne : q ≠ p) : rank q ≠ rank p := by
    intro htie
    let σ := Equiv.swap p q
    have hσrank (x : ρ) : rank (σ x) = rank x := by
      by_cases hxp : x = p
      · rw [hxp, Equiv.swap_apply_left, htie]
      · by_cases hxq : x = q
        · rw [hxq, Equiv.swap_apply_right, htie]
        · rw [Equiv.swap_apply_of_ne_of_ne hxp hxq]
    have hσmem {x : ρ} (hx : x ∈ rows) : σ x ∈ rows := by
      by_cases hxp : x = p
      · rw [hxp, Equiv.swap_apply_left]
        exact hq
      · by_cases hxq : x = q
        · rw [hxq, Equiv.swap_apply_right]
          exact hprow
        · rw [Equiv.swap_apply_of_ne_of_ne hxp hxq]
          exact hx
    have hσperm : ((page ++ left).map σ).Perm rows := by
      refine (List.perm_ext_iff_of_nodup (hnodup.map σ.injective) hkeys.of_map).mpr fun x => ?_
      refine ⟨fun hx => ?_, fun hx => List.mem_map.mpr ⟨σ x, hperm.mem_iff.mpr (hσmem hx), ?_⟩⟩
      · obtain ⟨y, hy, rfl⟩ := List.mem_map.mp hx
        exact hσmem (hperm.mem_iff.mp hy)
      · exact Equiv.swap_apply_self p q x
    have hσsorted : ((page ++ left).map σ).Pairwise fun a b => rank b ≤ rank a := by
      rw [List.pairwise_map]
      exact hsorted.imp fun hab => by rwa [hσrank, hσrank]
    have hσpage : Answer rank n rows (page.map σ) := by
      have hanswer := answer_of_pairwise (n := n) hσperm hσsorted
      rwa [← List.map_take, ← htake] at hanswer
    have hσlast : (page.map σ).getLast? = some q := by
      rw [List.getLast?_map, hlast, Option.map_some, Equiv.swap_apply_left]
    have hswapped := hexact _ _ hσpage (by simpa using hfull) hσlast p hprow
    have hmem : p ∈ page.map σ ↔ q ∈ page := by
      rw [List.mem_map]
      refine ⟨?_, fun hx => ⟨q, hx, Equiv.swap_apply_right p q⟩⟩
      rintro ⟨y, hy, hyp⟩
      obtain rfl : y = q := by
        rw [← Equiv.swap_apply_right p q] at hyp
        exact σ.injective hyp
      exact hy
    rw [hmem, hcut q hq] at hswapped
    rcases lt_trichotomy (key q) (key p) with hlt | heq | hgt
    · exact lt_asymm hlt (hswapped.mp hlt)
    · exact hne (eq_of_key hkeys hq hprow heq)
    · exact lt_asymm hgt (hswapped.mpr hgt)
  refine ⟨?_, fun x hx hne => ?_⟩
  · obtain ⟨init, rfl⟩ := List.getLast?_eq_some_iff.mp hlast
    have hinit : ∀ x ∈ init, rank p < rank x := by
      intro x hx
      have hmem : x ∈ init ++ [p] := List.mem_append_left _ hx
      have hxp : x ≠ p := (List.nodup_append.mp (List.nodup_append.mp hnodup).1).2.2 x hx p
        (List.mem_singleton_self p)
      exact lt_of_le_of_ne (last_le hpage hlast hmem) (halone (h.mem hmem) hxp).symm
    have hzero : left.countP (fun x => rank p < rank x) = 0 := by
      apply List.countP_eq_zero.mpr
      intro x hx
      simpa using hcross p hp x hx
    rw [← hperm.countP_eq, List.countP_append, List.countP_append, hzero,
      List.countP_eq_length.mpr fun x hx => by simpa using hinit x hx]
    simpa using hfull
  · have hxp : x ≠ p := fun heq => hne (by rw [heq])
    by_cases hin : x ∈ page
    · have hkey : ¬ key x < key p := fun hlt => (hcut x hx).mpr hlt hin
      exact Or.inl ⟨lt_of_le_of_ne (last_le hpage hlast hin) (halone hx hxp).symm,
        lt_of_le_of_ne (not_lt.mp hkey) (Ne.symm hne)⟩
    · have hxleft : x ∈ left := by
        rcases List.mem_append.mp (hperm.mem_iff.mpr hx) with hx | hx
        · exact absurd hx hin
        · exact hx
      exact Or.inr ⟨lt_of_le_of_ne (hcross p hp x hxleft) (halone hx hxp), (hcut x hx).mp hin⟩

end Cut

/-! ### Readers -/

variable {respond : Option γ → List ρ → Option γ → Prop} {encode : ρ → γ} {decode : γ → Option κ}

/-- What a cursor leaves. -/
def leaves (key : ρ → κ) (rows : List ρ) (decode : γ → Option κ) (c : Option γ) : List ρ :=
  behind key rows (c.bind decode)

theorem leaves_none : leaves key rows decode none = rows := by
  simp [leaves, behind]

/-- A next cursor stands for the last row of a full page. -/
theorem RankedKeyset.next_eq (h : RankedKeyset respond rank key n rows encode decode) {c : Option γ}
    {items : List ρ} {c' : γ} (answer : respond c items (some c')) :
    ∃ p, items.length = n ∧ items.getLast? = some p ∧ c' = encode p
      ∧ Answer rank n (leaves key rows decode c) items
      ∧ leaves key rows decode (some c') = behind key (leaves key rows decode c) (some (key p)) := by
  obtain ⟨hanswer, hnext⟩ := (h.respond_iff c items (some c')).mp answer
  split at hnext
  · next hfull =>
    obtain ⟨p, hlast, hp⟩ := Option.map_eq_some_iff.mp hnext.symm
    have hmem : p ∈ behind key rows (c.bind decode) := hanswer.mem (List.mem_of_getLast? hlast)
    refine ⟨p, hfull, hlast, hp.symm, hanswer, ?_⟩
    unfold leaves
    rw [behind_behind hmem, ← hp, Option.bind_some, h.decode_encode p (mem_behind.mp hmem).1]
  · cases hnext

/-- A page without a next cursor is not full. -/
theorem RankedKeyset.last_ne (h : RankedKeyset respond rank key n rows encode decode) (hn : 0 < n)
    {c : Option γ} {items : List ρ} (answer : respond c items none) :
    Answer rank n (leaves key rows decode c) items ∧ items.length ≠ n := by
  obtain ⟨hanswer, hnext⟩ := (h.respond_iff c items none).mp answer
  refine ⟨hanswer, fun hfull => ?_⟩
  have hne : items ≠ [] := List.ne_nil_of_length_pos (by omega)
  rw [if_pos hfull, List.getLast?_eq_some_getLast hne] at hnext
  cases hnext

/-- A full page has a next cursor. -/
theorem RankedKeyset.respond_next (h : RankedKeyset respond rank key n rows encode decode)
    {c : Option γ} {items : List ρ} (hanswer : Answer rank n (leaves key rows decode c) items)
    (hfull : items.length = n) (hlast : items.getLast? = some p) :
    respond c items (some (encode p)) :=
  (h.respond_iff _ _ _).mpr ⟨hanswer, by rw [if_pos hfull, hlast, Option.map_some]⟩

/-- Every next cursor leaves fewer rows. -/
theorem RankedKeyset.shrinks (h : RankedKeyset respond rank key n rows encode decode) :
    Shrinks respond fun c m => (leaves key rows decode c).length = m where
  answered := by
    intro c m _
    obtain ⟨page, hpage⟩ := exists_answer rank n (leaves key rows decode c)
    exact ⟨_, _, (h.respond_iff _ _ _).mpr ⟨hpage, rfl⟩⟩
  next := by
    rintro c m items c' rfl answer
    obtain ⟨p, -, hlast, -, hanswer, hleaves⟩ := h.next_eq answer
    refine ⟨_, ?_, rfl⟩
    rw [hleaves]
    apply List.length_filter_lt_length_iff_exists.mpr
    exact ⟨p, hanswer.mem (List.mem_of_getLast? hlast), by simp⟩

/-- A reader sees only what the cursor leaves. -/
theorem RankedKeyset.mem_of_follow (h : RankedKeyset respond rank key n rows encode decode)
    (hn : 0 < n) {c : Option γ} {pages : List (List ρ)} (hfollow : Follow respond c pages) :
    ∀ x ∈ pages.flatten, x ∈ leaves key rows decode c := by
  induction hfollow with
  | last answer =>
    intro x hx
    rw [List.flatten_singleton] at hx
    exact (h.last_ne hn answer).1.mem hx
  | next answer _ ih =>
    intro x hx
    obtain ⟨p, -, -, -, hanswer, hleaves⟩ := h.next_eq answer
    rw [List.flatten_cons, List.mem_append] at hx
    rcases hx with hx | hx
    · exact hanswer.mem hx
    · have hbehind := ih x hx
      rw [hleaves] at hbehind
      exact (mem_behind.mp hbehind).1

/-- When every reader sees each row once, the rows behind a full page are those it leaves out. -/
theorem RankedKeyset.exact_of_perm (h : RankedKeyset respond rank key n rows encode decode)
    (hn : 0 < n) {c : Option γ} (hnodup : (leaves key rows decode c).Nodup)
    (hall : ∀ pages, Follow respond c pages → pages.flatten.Perm (leaves key rows decode c))
    {page : List ρ} {p : ρ} (hanswer : Answer rank n (leaves key rows decode c) page)
    (hfull : page.length = n) (hlast : page.getLast? = some p) :
    ∀ x ∈ leaves key rows decode c, x ∉ page ↔ key x < key p := by
  have hrespond := h.respond_next hanswer hfull hlast
  obtain ⟨p', -, hlast', -, -, hleaves⟩ := h.next_eq hrespond
  obtain rfl : p = p' := Option.some.inj (hlast.symm.trans hlast')
  refine fun x hx => ⟨fun hout => ?_, fun hlt hin => ?_⟩
  · -- a row that the page leaves out comes later, so that it is behind the cursor
    obtain ⟨pages, hpages⟩ := h.shrinks.exists_follow (c := some (encode p)) rfl
    have hmem := (hall _ (.next hrespond hpages)).mem_iff.mpr hx
    rw [List.flatten_cons, List.mem_append] at hmem
    have hbehind := h.mem_of_follow hn hpages x (hmem.resolve_left hout)
    rw [hleaves] at hbehind
    exact (mem_behind.mp hbehind).2 _ rfl
  · -- a row of the page behind the cursor: the next page may start with a row of this one
    obtain ⟨l, hperm, hsorted, rfl⟩ := hanswer
    have hkeep (l : List ρ) : behind key l (some (key p)) = l.filter fun r => key r < key p := by
      simp [behind]
    have hx' : x ∈ (l.take n).filter fun r => key r < key p :=
      List.mem_filter.mpr ⟨hin, by simpa using hlt⟩
    obtain ⟨z, zs, hz⟩ := List.exists_cons_of_ne_nil (List.ne_nil_of_mem hx')
    have hzpage : z ∈ l.take n :=
      List.mem_of_mem_filter (hz ▸ List.mem_cons_self : z ∈ (l.take n).filter _)
    have hsplit : l.filter (fun r => key r < key p)
        = z :: (zs ++ (l.drop n).filter fun r => key r < key p) := by
      conv_lhs => rw [← List.take_append_drop n l]
      rw [List.filter_append, hz, List.cons_append]
    have hnext : Answer rank n (leaves key rows decode (some (encode p)))
        ((l.filter fun r => key r < key p).take n) := by
      refine answer_of_pairwise ?_ (hsorted.filter _)
      rw [hleaves, hkeep]
      exact hperm.filter _
    have hanswered := (h.respond_iff _ _ _).mpr ⟨hnext, rfl⟩
    obtain ⟨pages, hpages⟩ := h.shrinks.exists_follow_cons rfl hanswered
    have hflat := (hall _ (.next hrespond hpages)).nodup_iff.mpr hnodup
    rw [List.flatten_cons, List.flatten_cons] at hflat
    refine (List.nodup_append.mp hflat).2.2 z hzpage z (List.mem_append_left _ ?_) rfl
    obtain ⟨m, rfl⟩ := Nat.exists_eq_succ_of_ne_zero hn.ne'
    rw [hsplit, List.take_succ_cons]
    exact List.mem_cons_self

/-- The last row of a full page cuts, where the rows do. -/
theorem Cuts.cutAt {left : List ρ} (hcuts : Cuts rank key n left)
    (hleft : (left.map key).Nodup) (hanswer : Answer rank n left page) (hfull : page.length = n)
    (hlast : page.getLast? = some p) : p ∈ left ∧ CutAt rank key n left p := by
  have hlength : (0 + 1) * n ≤ left.length := by
    obtain ⟨l, hperm, -, rfl⟩ := hanswer
    have hle := List.length_take_le' n l
    rw [hperm.length_eq] at hle
    omega
  obtain ⟨q, hq, hcut⟩ := hcuts 0 hlength
  rw [Nat.zero_add, Nat.one_mul] at hcut
  obtain ⟨hlast', -⟩ := hcut.answer hleft hq hanswer
  obtain rfl := Option.some.inj (hlast.symm.trans hlast')
  exact ⟨hq, hcut⟩

/-- The readers from a cursor on see each row that it leaves once, exactly when the rows cut. -/
theorem RankedKeyset.follow_perm_iff (h : RankedKeyset respond rank key n rows encode decode)
    (hn : 0 < n) (hkeys : (rows.map key).Nodup) (c : Option γ) :
    (∀ pages, Follow respond c pages → pages.flatten.Perm (leaves key rows decode c))
      ↔ Cuts rank key n (leaves key rows decode c) := by
  -- by the number of rows that are left
  induction hlength : (leaves key rows decode c).length using Nat.strong_induction_on
    generalizing c with
  | _ m ih =>
    have hleft : ((leaves key rows decode c).map key).Nodup :=
      hkeys.sublist (List.filter_sublist.map key)
    refine ⟨fun hall => ?_, fun hcuts pages hfollow => ?_⟩
    · by_cases hshort : (leaves key rows decode c).length < n
      · intro page hpage
        have hmul : n ≤ (page + 1) * n := Nat.le_mul_of_pos_left _ (Nat.succ_pos _)
        omega
      obtain ⟨page, hanswer⟩ := exists_answer rank n (leaves key rows decode c)
      have hfull : page.length = n := by
        obtain ⟨l, hperm, -, rfl⟩ := hanswer
        rw [List.length_take, hperm.length_eq]
        omega
      have hne : page ≠ [] := List.ne_nil_of_length_pos (by omega)
      have hlast := List.getLast?_eq_some_getLast hne
      have hcut := cutAt_of_exact hleft
        (fun page p hanswer hfull hlast => h.exact_of_perm hn hleft.of_map hall hanswer hfull hlast)
        hanswer hfull hlast
      have hp := hanswer.mem (List.mem_of_getLast? hlast)
      have hrespond := h.respond_next hanswer hfull hlast
      obtain ⟨p', -, hlast', -, -, hleaves⟩ := h.next_eq hrespond
      obtain rfl := Option.some.inj (hlast.symm.trans hlast')
      obtain ⟨m', hlt, hm'⟩ := h.shrinks.next rfl hrespond
      obtain ⟨-, -, hwhole, -⟩ := hcut.answer hleft hp hanswer
      rw [hcut.cuts_iff hleft hn hp, ← hleaves]
      refine (ih m' (hlength ▸ hlt) _ hm').mp fun pages hpages => ?_
      have hperm := hall _ (.next hrespond hpages)
      rw [List.flatten_cons] at hperm
      rw [hleaves]
      exact (List.perm_append_left_iff page).mp (hperm.trans hwhole.symm)
    · cases hfollow with
      | last answer =>
        obtain ⟨hanswer, hshort⟩ := h.last_ne hn answer
        rw [List.flatten_singleton]
        exact hanswer.perm_of_short hshort
      | @next _ items c' pages answer tail =>
        obtain ⟨p, hfull, hlast, -, hanswer, hleaves⟩ := h.next_eq answer
        obtain ⟨m', hlt, hm'⟩ := h.shrinks.next rfl answer
        obtain ⟨hp, hcut⟩ := hcuts.cutAt hleft hanswer hfull hlast
        obtain ⟨-, -, hwhole, -⟩ := hcut.answer hleft hp hanswer
        rw [hcut.cuts_iff hleft hn hp, ← hleaves] at hcuts
        have hrest := (ih m' (hlength ▸ hlt) _ hm').mpr hcuts pages tail
        rw [hleaves] at hrest
        rw [List.flatten_cons]
        exact (hrest.append_left _).trans hwhole

/-- Where the rows cut, the readers from a cursor on see them in the order of the rank. -/
theorem RankedKeyset.follow_sorted (h : RankedKeyset respond rank key n rows encode decode)
    (hn : 0 < n) (hkeys : (rows.map key).Nodup) {c : Option γ} {pages : List (List ρ)}
    (hfollow : Follow respond c pages) :
    Cuts rank key n (leaves key rows decode c) →
      pages.flatten.Pairwise fun a b => rank b ≤ rank a := by
  induction hfollow with
  | last answer =>
    intro _
    obtain ⟨l, -, hsorted, rfl⟩ := (h.last_ne hn answer).1
    rw [List.flatten_singleton]
    exact hsorted.take
  | @next c items c' pages answer tail ih =>
    intro hcuts
    have hleft : ((leaves key rows decode c).map key).Nodup :=
      hkeys.sublist (List.filter_sublist.map key)
    obtain ⟨p, hfull, hlast, -, hanswer, hleaves⟩ := h.next_eq answer
    obtain ⟨hp, hcut⟩ := hcuts.cutAt hleft hanswer hfull hlast
    obtain ⟨-, -, -, hpage⟩ := hcut.answer hleft hp hanswer
    obtain ⟨-, -, -, -, hbehind⟩ := hcut.split hleft hp
    rw [hcut.cuts_iff hleft hn hp, ← hleaves] at hcuts
    obtain ⟨l, -, hsorted, rfl⟩ := hanswer
    rw [List.flatten_cons]
    refine List.pairwise_append.mpr ⟨hsorted.take, ih hcuts, fun a ha b hb => ?_⟩
    have hb' := h.mem_of_follow hn tail b hb
    rw [hleaves] at hb'
    exact (hbehind b hb').1.le.trans (hpage a ha)

/-- **When a reader of a ranked list sees it completely**: each row once and in the order of the
    rank, or of a coarser one, exactly when at the end of each full page a row separates the rows by
    rank and by key alike. -/
theorem RankedKeyset.completeByRank_iff {τ' : Type*} [LinearOrder τ'] {coarse : ρ → τ'}
    (h : RankedKeyset respond rank key n rows encode decode) (hn : 0 < n)
    (hkeys : (rows.map key).Nodup) (hcoarse : ∀ a b, rank a ≤ rank b → coarse a ≤ coarse b) :
    CompleteByRank respond coarse rows ↔ Cuts rank key n rows := by
  have hiff := h.follow_perm_iff hn hkeys none
  rw [leaves_none] at hiff
  refine ⟨fun hcomplete => hiff.mp hcomplete.perm, fun hcuts => ?_⟩
  have hleaves : leaves key rows decode none = rows := leaves_none
  refine ⟨⟨h.shrinks.exists_follow rfl, h.shrinks.not_endless rfl, hiff.mpr hcuts⟩,
    fun pages hpages => ?_⟩
  exact (h.follow_sorted hn hkeys hpages (hleaves.symm ▸ hcuts)).imp fun hab => hcoarse _ _ hab

end Ranked

end Oecophylla.Lib
