import Mathlib.Data.List.Count
import Mathlib.Data.List.Range
import Mathlib.Data.Finset.Card
import Mathlib.Order.Interval.Finset.Nat
import Mathlib.Algebra.Order.BigOperators.Group.List

namespace Oecophylla.Lib

/-!
# Counters of fixed windows

Time is cut into windows of one width.  A counter numbers the requests of each window from one on
and admits those with an accepted number.  This file says how many requests it admits in a window
that may begin at any time.

* `bucket` — the times of one of the fixed windows;
* `admitted` — the times that the counter admits;
* `bucket_admitted` — those of one fixed window, by their numbers there;
* `countWindow` — the times of a window that begins anywhere, `countWindow_eq` its two parts;
* `Apart`, `Spaced` — the requests that have to wait for a width come that much later;
* `countWindow_admitted_le_iff` — the exact condition for a maximum in every window.
-/

/-- The times of the fixed window `b`. -/
def bucket (width b : ℕ) (times : List ℕ) : List ℕ := times.filter fun t => t / width = b

/-- The times that a counter admits, when its windows have `seen` requests so far. -/
def admitted (width : ℕ) (p : ℕ → Bool) : (seen : ℕ → ℕ) → List ℕ → List ℕ
  | _, [] => []
  | seen, t :: ts =>
    let number := seen (t / width) + 1
    let rest := admitted width p (Function.update seen (t / width) number) ts
    if p number then t :: rest else rest

/-- The times with an accepted number, when `k` requests came before. -/
def pick (p : ℕ → Bool) : (k : ℕ) → List ℕ → List ℕ
  | _, [] => []
  | k, t :: ts => if p (k + 1) then t :: pick p (k + 1) ts else pick p (k + 1) ts

/-- How many times are in the window that begins at `start`. -/
def countWindow (width start : ℕ) (times : List ℕ) : ℕ :=
  times.countP fun t => start ≤ t ∧ t < start + width

/-! ### One fixed window -/

section Pick

variable {p : ℕ → Bool} {width : ℕ}

theorem bucket_cons_self (t : ℕ) (ts : List ℕ) :
    bucket width (t / width) (t :: ts) = t :: bucket width (t / width) ts := by
  simp [bucket]

theorem bucket_cons_of_ne {b t : ℕ} (h : t / width ≠ b) (ts : List ℕ) :
    bucket width b (t :: ts) = bucket width b ts := by
  simp [bucket, h]

theorem bucket_admitted (b : ℕ) (seen : ℕ → ℕ) (times : List ℕ) :
    bucket width b (admitted width p seen times) = pick p (seen b) (bucket width b times) := by
  induction times generalizing seen with
  | nil => rfl
  | cons t ts ih =>
    by_cases hb : t / width = b
    · subst hb
      -- the request belongs to this window and takes its next number
      rw [bucket_cons_self, pick]
      by_cases hp : p (seen (t / width) + 1)
      · simp [admitted, hp, bucket_cons_self, ih]
      · simp [admitted, hp, ih]
    · rw [bucket_cons_of_ne hb]
      have hseen : Function.update seen (t / width) (seen (t / width) + 1) b = seen b :=
        Function.update_of_ne (Ne.symm hb) _ _
      by_cases hp : p (seen (t / width) + 1)
      · simp only [admitted, hp, if_true]
        rw [bucket_cons_of_ne hb, ih, hseen]
      · simp only [admitted, hp, Bool.false_eq_true, if_false]
        rw [ih, hseen]

/-- As long as the accepted numbers are those up to the maximum, the first requests are picked. -/
theorem pick_eq_take {max k : ℕ} {ts : List ℕ}
    (hp : ∀ o, 1 ≤ o → o ≤ k + ts.length → (p o = true ↔ o ≤ max)) :
    pick p k ts = ts.take (max - k) := by
  induction ts generalizing k with
  | nil => simp [pick]
  | cons t ts ih =>
    have htail : pick p (k + 1) ts = ts.take (max - (k + 1)) := by
      apply ih
      intro o ho hle
      exact hp o ho (by simp only [List.length_cons]; omega)
    have hhead := hp (k + 1) (by omega) (by simp only [List.length_cons]; omega)
    by_cases hle : k + 1 ≤ max
    · rw [pick, if_pos (hhead.mpr hle), htail, show max - k = (max - (k + 1)) + 1 by omega,
        List.take_succ_cons]
    · rw [pick, if_neg (fun h => hle (hhead.mp h)), htail, show max - (k + 1) = 0 by omega,
        show max - k = 0 by omega, List.take_zero, List.take_zero]

theorem length_pick (k : ℕ) (ts : List ℕ) :
    (pick p k ts).length = (List.range' (k + 1) ts.length).countP p := by
  induction ts generalizing k with
  | nil => rfl
  | cons t ts ih =>
    rw [pick, List.length_cons, List.range'_succ, List.countP_cons, ← ih]
    split <;> simp [*]

/-- A counter that accepts the numbers up to the maximum, and `limit` again, admits too many. -/
theorem lt_length_pick {max limit : ℕ} {ts : List ℕ} (hmax : max < limit)
    (hp : ∀ o, 1 ≤ o → o ≤ max → p o = true) (hlimit : p limit = true) (hlen : limit ≤ ts.length) :
    max < (pick p 0 ts).length := by
  have hnodup : ((List.range' (0 + 1) ts.length).filter p).Nodup :=
    (List.nodup_range' 1).filter _
  rw [length_pick, List.countP_eq_length_filter, ← List.toFinset_card_of_nodup hnodup]
  have hsub : insert limit (Finset.Icc 1 max)
      ⊆ ((List.range' (0 + 1) ts.length).filter p).toFinset := by
    intro o ho
    rw [List.mem_toFinset, List.mem_filter, List.mem_range'_1]
    rcases Finset.mem_insert.mp ho with rfl | ho
    · exact ⟨by omega, hlimit⟩
    · obtain ⟨hone, hle⟩ := Finset.mem_Icc.mp ho
      exact ⟨by omega, hp o hone hle⟩
  have hnot : limit ∉ Finset.Icc 1 max := by
    simp only [Finset.mem_Icc]
    omega
  have hcard := Finset.card_le_card hsub
  rw [Finset.card_insert_of_notMem hnot, Nat.card_Icc] at hcard
  omega

end Pick

/-! ### A window that begins anywhere -/

section Window

variable {width : ℕ} (hwidth : 0 < width)
include hwidth

/-- It lies in two fixed windows. -/
theorem countWindow_eq (start : ℕ) (times : List ℕ) :
    countWindow width start times
      = (bucket width (start / width) times).countP (fun t => start ≤ t)
        + (bucket width (start / width + 1) times).countP (fun t => t < start + width) := by
  have hdiv : ∀ t b : ℕ, t / width = b ↔ b * width ≤ t ∧ t < b * width + width := by
    intro t b
    rw [Nat.div_eq_iff hwidth]
    omega
  obtain ⟨hlow, hhigh⟩ := (hdiv start _).mp rfl
  induction times with
  | nil => rfl
  | cons t ts ih =>
    have hthis := hdiv t (start / width)
    have hnext := hdiv t (start / width + 1)
    rw [Nat.add_mul, Nat.one_mul] at hnext
    unfold countWindow at ih ⊢
    rw [List.countP_cons, ih]
    by_cases hb : t / width = start / width
    · have hb' : t / width ≠ start / width + 1 := by omega
      rw [← hb, bucket_cons_self, hb, bucket_cons_of_ne hb', List.countP_cons]
      have hlt : t < start + width := by
        have := (hthis.mp hb).2
        omega
      simp only [hlt, and_true]
      omega
    · rw [bucket_cons_of_ne hb]
      by_cases hb' : t / width = start / width + 1
      · rw [← hb', bucket_cons_self, hb', List.countP_cons]
        have hle : start ≤ t := by
          have := (hnext.mp hb').1
          omega
        simp only [hle, true_and]
        omega
      · have hout : ¬ (start ≤ t ∧ t < start + width) := by
          rintro ⟨hle, hlt⟩
          rcases Nat.lt_or_ge t (start / width * width + width) with h | h
          · exact hb (hthis.mpr ⟨by omega, h⟩)
          · exact hb' (hnext.mpr ⟨h, by omega⟩)
        rw [bucket_cons_of_ne hb']
        simp [hout]

end Window

/-! ### Sorted times -/

section Sorted

variable {l : List ℕ} (hl : l.Pairwise (· ≤ ·))
include hl

theorem getElem_le_getElem {i j : ℕ} (hij : i ≤ j) (hj : j < l.length) : l[i] ≤ l[j] := by
  rcases Nat.eq_or_lt_of_le hij with rfl | hlt
  · exact le_rfl
  · exact List.pairwise_iff_getElem.mp hl i j (by omega) hj hlt

theorem sub_le_countP_ge {i t : ℕ} (hi : l[i]? = some t) :
    l.length - i ≤ l.countP fun u => t ≤ u := by
  obtain ⟨hlt, rfl⟩ := List.getElem?_eq_some_iff.mp hi
  have hdrop : (l.drop i).countP (fun u => l[i] ≤ u) = (l.drop i).length := by
    rw [List.countP_eq_length]
    intro u hu
    obtain ⟨m, hm, rfl⟩ := List.getElem_of_mem hu
    rw [List.getElem_drop, decide_eq_true_eq]
    exact getElem_le_getElem hl (Nat.le_add_right i m) _
  rw [← List.length_drop, ← hdrop]
  exact List.Sublist.countP_le (List.drop_sublist i l)

theorem succ_le_countP_lt {j t bound : ℕ} (hj : l[j]? = some t) (ht : t < bound) :
    j + 1 ≤ l.countP fun u => u < bound := by
  obtain ⟨hlt, rfl⟩ := List.getElem?_eq_some_iff.mp hj
  have htake : (l.take (j + 1)).countP (fun u => u < bound) = (l.take (j + 1)).length := by
    rw [List.countP_eq_length]
    intro u hu
    obtain ⟨m, hm, rfl⟩ := List.getElem_of_mem hu
    rw [List.length_take] at hm
    rw [List.getElem_take, decide_eq_true_eq]
    exact (getElem_le_getElem hl (by omega) hlt).trans_lt ht
  have hlen : (l.take (j + 1)).length = j + 1 := by simp; omega
  rw [← hlen, ← htake]
  exact List.Sublist.countP_le (List.take_sublist (j + 1) l)

/-- The times from `start` on are the last ones. -/
theorem le_of_countP_ge {i t start : ℕ} (hi : l[i]? = some t)
    (hcount : l.length ≤ i + l.countP fun u => start ≤ u) : start ≤ t := by
  by_contra hlt
  rw [not_le] at hlt
  have hbefore := succ_le_countP_lt hl hi hlt
  have hsplit := List.length_eq_countP_add_countP (fun u => decide (start ≤ u)) (l := l)
  have hnot : l.countP (fun u => decide ¬ decide (start ≤ u) = true)
      = l.countP fun u => u < start := by
    congr 1
    ext u
    simp
  rw [hnot] at hsplit
  omega

/-- The times before `bound` are the first ones. -/
theorem lt_of_countP_lt {j t bound : ℕ} (hj : l[j]? = some t)
    (hcount : j < l.countP fun u => u < bound) : t < bound := by
  by_contra hle
  rw [not_lt] at hle
  have hafter := sub_le_countP_ge hl hj
  have hlt := (List.getElem?_eq_some_iff.mp hj).1
  have hmono : l.countP (fun u => t ≤ u) ≤ l.countP fun u => bound ≤ u := by
    apply List.countP_mono_left
    intro u _ hu
    simp only [decide_eq_true_eq] at hu ⊢
    omega
  have hsplit := List.length_eq_countP_add_countP (fun u => decide (u < bound)) (l := l)
  have hnot : l.countP (fun u => decide ¬ decide (u < bound) = true)
      = l.countP fun u => bound ≤ u := by
    congr 1
    ext u
    simp
  rw [hnot] at hsplit
  omega

end Sorted

/-! ### The maximum in every window -/

/-- Of two lists of times, one request of the second would make more than `max` together with the
    last ones of the first: it comes a whole width after the earliest of these. -/
def Apart (width max : ℕ) (first second : List ℕ) : Prop :=
  ∀ i j t t' : ℕ, first[i]? = some t → second[j]? = some t' → i + max = first.length + j →
    t + width ≤ t'

/-- Every fixed window has fewer than `limit` requests, and the first `max` ones of adjacent windows
    are apart. -/
def Spaced (width max limit : ℕ) (times : List ℕ) : Prop :=
  (∀ b, (bucket width b times).length < limit) ∧
    ∀ b, Apart width max ((bucket width b times).take max) ((bucket width (b + 1) times).take max)

/-- Few requests are spaced. -/
theorem spaced_of_length_le {width max limit : ℕ} {times : List ℕ} (hfew : times.length ≤ max)
    (hmax : max < limit) : Spaced width max limit times := by
  have hboth : ∀ b, (bucket width b times).length + (bucket width (b + 1) times).length
      ≤ times.length := by
    intro b
    induction times with
    | nil => simp [bucket]
    | cons t ts ih =>
      have hrest := ih ((Nat.le_succ _).trans hfew)
      rw [List.length_cons]
      by_cases hb : t / width = b
      · subst hb
        rw [bucket_cons_self, bucket_cons_of_ne (by omega), List.length_cons]
        omega
      · rw [bucket_cons_of_ne hb]
        by_cases hb' : t / width = b + 1
        · rw [← hb', bucket_cons_self, hb', List.length_cons]
          omega
        · rw [bucket_cons_of_ne hb']
          omega
  constructor
  · intro b
    have := hboth b
    omega
  · intro b i j t t' hi hj hij
    -- there is no request that would be one too many
    have hlt := (List.getElem?_eq_some_iff.mp hj).1
    have := hboth b
    rw [List.length_take] at hij hlt
    omega

section Apart

variable {width max : ℕ} {first second : List ℕ} (hfirst : first.Pairwise (· ≤ ·))
  (hsecond : second.Pairwise (· ≤ ·))
include hfirst hsecond

theorem countP_add_countP_le (hlen : first.length ≤ max) (hlen' : second.length ≤ max)
    (hapart : Apart width max first second) (start : ℕ) :
    first.countP (fun t => start ≤ t) + second.countP (fun t => t < start + width) ≤ max := by
  by_contra hmany
  rw [not_le] at hmany
  have hle := List.countP_le_length (p := fun t => decide (start ≤ t)) (l := first)
  have hle' := List.countP_le_length (p := fun t => decide (t < start + width)) (l := second)
  -- the request that is one too many, and the one that it has to wait for
  obtain ⟨i, hi⟩ := Nat.exists_eq_add_of_le' hle
  obtain ⟨j, hj⟩ := Nat.exists_eq_add_of_le' (hle.trans hlen)
  have hgeti : first[i]? = some (first.get ⟨i, by omega⟩) := List.getElem?_eq_getElem (by omega)
  have hgetj : second[j]? = some (second.get ⟨j, by omega⟩) := List.getElem?_eq_getElem (by omega)
  have hfar := hapart i j _ _ hgeti hgetj (by omega)
  have hafter : start ≤ first.get ⟨i, _⟩ := le_of_countP_ge hfirst hgeti (by omega)
  have hbefore : second.get ⟨j, _⟩ < start + width := lt_of_countP_lt hsecond hgetj (by omega)
  omega

/-- Two requests that are too close make a window with more than the maximum. -/
theorem lt_countP_add_countP {i j t t' : ℕ} (hi : first[i]? = some t) (hj : second[j]? = some t')
    (hij : i + max = first.length + j) (hclose : t' < t + width) :
    max < first.countP (fun u => t ≤ u) + second.countP (fun u => u < t + width) := by
  have hrest := sub_le_countP_ge hfirst hi
  have hstart := succ_le_countP_lt hsecond hj hclose
  have hlt := (List.getElem?_eq_some_iff.mp hi).1
  omega

end Apart

section Maximum

variable {width max limit : ℕ} {p : ℕ → Bool} {times : List ℕ}

/-- The counter admits the first requests of a fixed window with fewer than `limit`. -/
theorem bucket_admitted_eq_take (hp : ∀ o, 1 ≤ o → o < limit → (p o = true ↔ o ≤ max)) {b : ℕ}
    (hlen : (bucket width b times).length < limit) :
    bucket width b (admitted width p (fun _ => 0) times) = (bucket width b times).take max := by
  have hpick := @pick_eq_take p max 0 (bucket width b times) fun o ho hle => hp o ho (by omega)
  rw [bucket_admitted, hpick, Nat.sub_zero]

/-- The window of a whole fixed window has its admitted requests. -/
theorem length_bucket_le_countWindow (hwidth : 0 < width) (b : ℕ) (times : List ℕ) :
    (bucket width b times).length ≤ countWindow width (b * width) times := by
  have hall : (bucket width b times).countP (fun t => b * width ≤ t)
      = (bucket width b times).length := by
    rw [List.countP_eq_length]
    intro t ht
    have hdiv : t / width = b := by simpa using List.of_mem_filter ht
    rw [decide_eq_true_eq, ← hdiv]
    exact Nat.div_mul_le_self t width
  rw [countWindow_eq hwidth, Nat.mul_div_cancel b hwidth]
  omega

variable (hwidth : 0 < width) (hp : ∀ o, 1 ≤ o → o < limit → (p o = true ↔ o ≤ max))
include hwidth hp

theorem countWindow_admitted (hlen : ∀ b, (bucket width b times).length < limit) (start : ℕ) :
    countWindow width start (admitted width p (fun _ => 0) times)
      = ((bucket width (start / width) times).take max).countP (fun t => start ≤ t)
        + ((bucket width (start / width + 1) times).take max).countP
          (fun t => t < start + width) := by
  rw [countWindow_eq hwidth, bucket_admitted_eq_take hp (hlen _),
    bucket_admitted_eq_take hp (hlen _)]

/-- The maximum is kept in every window exactly if the requests are spaced. -/
theorem countWindow_admitted_le_iff (hsorted : times.Pairwise (· ≤ ·)) (hlimit : p limit = true)
    (hmax : max < limit) :
    (∀ start, countWindow width start (admitted width p (fun _ => 0) times) ≤ max)
      ↔ Spaced width max limit times := by
  have htake : ∀ b, ((bucket width b times).take max).Pairwise (· ≤ ·) := by
    intro b
    exact (hsorted.filter _).sublist (List.take_sublist max _)
  have hlength : ∀ b, ((bucket width b times).take max).length ≤ max := by
    intro b
    rw [List.length_take]
    omega
  constructor
  · intro h
    have hlen : ∀ b, (bucket width b times).length < limit := by
      intro b
      by_contra hge
      -- the counter accepts the number `limit` besides those up to the maximum
      have hmany := lt_length_pick hmax (fun o ho hle => (hp o ho (by omega)).mpr hle) hlimit
        (not_lt.mp hge)
      rw [← @bucket_admitted p width b (fun _ => 0) times] at hmany
      have hwhole := length_bucket_le_countWindow hwidth b (admitted width p (fun _ => 0) times)
      have hcount := h (b * width)
      omega
    refine ⟨hlen, ?_⟩
    intro b i j t t' hi hj hij
    by_contra hclose
    have hb : t / width = b := by
      have hmem := List.mem_of_mem_take (List.mem_of_getElem? hi)
      simpa using List.of_mem_filter hmem
    -- the window that begins at `t` has the rest of the one and the start of the other
    have hmany := lt_countP_add_countP (htake b) (htake (b + 1)) hi hj hij (not_le.mp hclose)
    have hcount := h t
    rw [countWindow_admitted hwidth hp hlen, hb] at hcount
    omega
  · rintro ⟨hlen, hspaced⟩ start
    rw [countWindow_admitted hwidth hp hlen]
    exact countP_add_countP_le (htake _) (htake _) (hlength _) (hlength _) (hspaced _) start

end Maximum

end Oecophylla.Lib
