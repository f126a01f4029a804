import Oecophylla.Python.Value
import Mathlib.Data.List.OfFn

namespace Oecophylla.Python

/-!
# UUIDs and their texts

* `uuidText_injective` — the texts of two 128-bit numbers differ when the numbers do;
* `uuidOfText_uuidText` — a UUID is read back from its text.
-/

/-- The hexadecimal digits of a UUID. -/
def uuidDigits (n : Nat) : List Char :=
  List.ofFn fun i : Fin 32 => Nat.digitChar (n / 16 ^ (31 - i.val) % 16)

/-- The five groups of the digits are all of them. -/
private theorem groups_eq {α : Type} {l : List α} (h : l.length = 32) :
    (l.drop 0).take 8 ++ ((l.drop 8).take 4 ++ ((l.drop 12).take 4 ++ ((l.drop 16).take 4
      ++ (l.drop 20).take 12))) = l := by
  have hlast : (l.drop 20).take 12 = l.drop 20 := List.take_of_length_le (by simp [h])
  have hstep : ∀ a b, (l.drop a).take b ++ l.drop (a + b) = l.drop a := by
    intro a b
    rw [← List.drop_drop, List.take_append_drop]
  rw [hlast, hstep 16 4, hstep 12 4, hstep 8 4, hstep 0 8, List.drop_zero]

private theorem digitChar_ne_dash {d : Nat} (h : d < 16) : Nat.digitChar d ≠ '-' := by
  have hall : ∀ d : Fin 16, Nat.digitChar d.val ≠ '-' := by decide
  exact hall ⟨d, h⟩

private theorem digitChar_injective {d e : Nat} (hd : d < 16) (he : e < 16)
    (h : Nat.digitChar d = Nat.digitChar e) : d = e := by
  have hall : ∀ d e : Fin 16, Nat.digitChar d.val = Nat.digitChar e.val → d = e := by decide
  exact congrArg Fin.val (hall ⟨d, hd⟩ ⟨e, he⟩ h)

/-- The digits of a UUID are its text without the hyphens. -/
theorem filter_uuidText (n : Nat) :
    (uuidText n).toList.filter (fun c => c ≠ '-') = uuidDigits n := by
  have hdash : ∀ c ∈ uuidDigits n, (decide (c ≠ '-')) = true := by
    intro c hc
    obtain ⟨i, rfl⟩ := List.mem_ofFn.mp hc
    exact decide_eq_true (digitChar_ne_dash (Nat.mod_lt _ (by omega)))
  have hgroup : ∀ a b, (((uuidDigits n).drop a).take b).filter (fun c => c ≠ '-')
      = ((uuidDigits n).drop a).take b := by
    intro a b
    apply List.filter_eq_self.mpr
    intro c hc
    exact hdash c (List.mem_of_mem_drop (List.mem_of_mem_take hc))
  have hhyphen : "-".toList.filter (fun c => decide (c ≠ '-')) = [] := by decide
  have hlength : (uuidDigits n).length = 32 := List.length_ofFn
  show ((String.ofList (((uuidDigits n).drop 0).take 8) ++ "-"
    ++ String.ofList (((uuidDigits n).drop 8).take 4) ++ "-"
    ++ String.ofList (((uuidDigits n).drop 12).take 4) ++ "-"
    ++ String.ofList (((uuidDigits n).drop 16).take 4) ++ "-"
    ++ String.ofList (((uuidDigits n).drop 20).take 12)).toList).filter _ = _
  simp only [String.toList_append, String.toList_ofList, List.filter_append, hgroup, hhyphen,
    List.nil_append, List.append_assoc]
  exact groups_eq hlength

/-- A number is determined by its last digits. -/
private theorem eq_of_digits (k : Nat) {n m : Nat} (hn : n < 16 ^ k) (hm : m < 16 ^ k)
    (h : ∀ i < k, n / 16 ^ i % 16 = m / 16 ^ i % 16) : n = m := by
  induction k generalizing n m with
  | zero => omega
  | succ k ih =>
    have hlow : n % 16 = m % 16 := by simpa using h 0 (by omega)
    have hhigh : n / 16 = m / 16 := by
      apply ih
      · rw [Nat.pow_succ] at hn; omega
      · rw [Nat.pow_succ] at hm; omega
      · intro i hi
        rw [Nat.div_div_eq_div_mul, Nat.div_div_eq_div_mul, ← Nat.pow_succ']
        exact h (i + 1) (by omega)
    omega

/-- **The texts of UUIDs tell them apart.** -/
theorem uuidText_injective {n m : Nat} (hn : n < 2 ^ 128) (hm : m < 2 ^ 128)
    (h : uuidText n = uuidText m) : n = m := by
  have hdigits : uuidDigits n = uuidDigits m := by
    rw [← filter_uuidText, ← filter_uuidText, h]
  have hpow : (2 : Nat) ^ 128 = 16 ^ 32 := by decide
  refine eq_of_digits 32 (hpow ▸ hn) (hpow ▸ hm) fun i hi => ?_
  have hfun := congrFun (List.ofFn_injective hdigits) ⟨31 - i, by omega⟩
  have hexponent : 31 - (31 - i) = i := by omega
  dsimp only at hfun
  rw [hexponent] at hfun
  exact digitChar_injective (Nat.mod_lt _ (by omega)) (Nat.mod_lt _ (by omega)) hfun

/-! ### Reading the text -/

theorem uuidText_mem {n : Nat} {c : Char} (h : c ∈ (uuidText n).toList) (hc : c ≠ '-') :
    ∃ d < 16, c = Nat.digitChar d := by
  have hmem : c ∈ (uuidText n).toList.filter fun c => c ≠ '-' := by simp [h, hc]
  rw [filter_uuidText] at hmem
  obtain ⟨i, rfl⟩ := List.mem_ofFn.mp hmem
  exact ⟨_, Nat.mod_lt _ (by omega), rfl⟩

/-- What is not a digit or a hyphen is not in the text. -/
theorem not_mem_uuidText {c : Char} (hc : c ≠ '-') (hdigit : ∀ d : Fin 16, c ≠ Nat.digitChar d.val)
    (n : Nat) : c ∉ (uuidText n).toList := by
  intro hmem
  obtain ⟨d, hd, heq⟩ := uuidText_mem hmem hc
  exact hdigit ⟨d, hd⟩ heq

/-- A word is not found where one of its characters is missing. -/
theorem removeAll_of_not_mem {word : List Char} {c : Char} (hword : c ∈ word) (fuel : Nat)
    {cs : List Char} (h : c ∉ cs) : removeAll word fuel cs = cs := by
  induction fuel generalizing cs with
  | zero => rfl
  | succ fuel ih =>
    cases cs with
    | nil => rfl
    | cons d cs =>
      have hpre : ¬ word.isPrefixOf (d :: cs) = true := by
        intro hp
        exact h ((List.isPrefixOf_iff_prefix.mp hp).subset hword)
      rw [removeAll, if_neg hpre, ih (fun hmem => h (List.mem_cons_of_mem d hmem))]

theorem dropWhile_of_forall {p : Char → Bool} {cs : List Char} (h : ∀ c ∈ cs, p c = false) :
    cs.dropWhile p = cs := by
  cases cs with
  | nil => rfl
  | cons c cs => rw [List.dropWhile_cons, h c List.mem_cons_self]; rfl

/-- Nothing is stripped from either end. -/
theorem dropWhile_both_of_forall {p : Char → Bool} {cs : List Char} (h : ∀ c ∈ cs, p c = false) :
    ((cs.dropWhile p).reverse.dropWhile p).reverse = cs := by
  have hreverse : ∀ c ∈ cs.reverse, p c = false := fun c hc => h c (List.mem_reverse.mp hc)
  rw [dropWhile_of_forall h, dropWhile_of_forall hreverse, List.reverse_reverse]

theorem readDigits_map_digitChar {ds : List Nat} (h : ∀ d ∈ ds, d < 16) (v : Nat) :
    readDigits 16 true v (ds.map Nat.digitChar) = some (ds.foldl (fun v d => v * 16 + d) v) := by
  have hall : ∀ d : Fin 16, Nat.digitChar d.val ≠ '_'
      ∧ digitValue 16 (Nat.digitChar d.val) = some d.val := by decide
  induction ds generalizing v with
  | nil => rfl
  | cons d ds ih =>
    obtain ⟨hne, hvalue⟩ := hall ⟨d, h d List.mem_cons_self⟩
    rw [List.map_cons, readDigits, if_neg hne, hvalue]
    exact ih (fun e he => h e (List.mem_cons_of_mem d he)) (v * 16 + d)

/-- The digits of a number, from the highest on. -/
theorem foldl_ofFn_digits (k n : Nat) :
    (List.ofFn fun i : Fin k => n / 16 ^ (k - 1 - i.val) % 16).foldl (fun v d => v * 16 + d) 0
      = n % 16 ^ k := by
  induction k generalizing n with
  | zero => simp [Nat.mod_one]
  | succ k ih =>
    rw [List.ofFn_succ', List.concat_eq_append, List.foldl_append]
    have hrest : (fun i : Fin k => n / 16 ^ (k + 1 - 1 - i.castSucc.val) % 16)
        = fun i : Fin k => n / 16 / 16 ^ (k - 1 - i.val) % 16 := by
      funext i
      rw [Nat.div_div_eq_div_mul, ← Nat.pow_succ']
      have hexponent : k + 1 - 1 - i.castSucc.val = (k - 1 - i.val).succ := by
        have := i.isLt
        show k + 1 - 1 - i.val = (k - 1 - i.val).succ
        omega
      rw [hexponent]
    rw [hrest, ih]
    show n / 16 % 16 ^ k * 16 + n / 16 ^ (k + 1 - 1 - k) % 16 = n % 16 ^ (k + 1)
    have hlast : k + 1 - 1 - k = 0 := by omega
    rw [hlast, Nat.pow_zero, Nat.div_one, Nat.pow_succ', Nat.mod_mul]
    omega

/-- The digits of a UUID as numbers. -/
theorem uuidDigits_eq_map (n : Nat) : uuidDigits n
    = (List.ofFn fun i : Fin 32 => n / 16 ^ (32 - 1 - i.val) % 16).map Nat.digitChar := by
  rw [List.map_ofFn]
  rfl

/-- `int(digits, 16)`. -/
theorem intOfText_uuidDigits {n : Nat} (hn : n < 2 ^ 128) :
    intOfText 16 (String.ofList (uuidDigits n)) = some (n : Int) := by
  have hall : ∀ d : Fin 16, spaces.contains (Nat.digitChar d.val).toNat = false
      ∧ Nat.digitChar d.val ≠ '-' ∧ Nat.digitChar d.val ≠ '+' ∧ Nat.digitChar d.val ≠ 'x'
      ∧ Nat.digitChar d.val ≠ 'X' := by decide
  obtain ⟨d, ds, hds⟩ : ∃ d ds, (List.ofFn fun i : Fin 32 => n / 16 ^ (32 - 1 - i.val) % 16)
      = d :: ds := ⟨_, _, List.ofFn_succ⟩
  have hlt : ∀ e ∈ d :: ds, e < 16 := by
    intro e he
    rw [← hds] at he
    obtain ⟨i, rfl⟩ := List.mem_ofFn.mp he
    exact Nat.mod_lt _ (by omega)
  have hchar : ∀ c ∈ uuidDigits n, ∃ e : Fin 16, c = Nat.digitChar e.val := by
    intro c hc
    rw [uuidDigits_eq_map, hds] at hc
    obtain ⟨e, he, rfl⟩ := List.mem_map.mp hc
    exact ⟨⟨e, hlt e he⟩, rfl⟩
  have hstrip : strip (uuidDigits n) = uuidDigits n := by
    refine dropWhile_both_of_forall fun c hc => ?_
    obtain ⟨e, rfl⟩ := hchar c hc
    exact (hall e).1
  have hhead : ∀ c, (uuidDigits n).head? = some c → c ≠ '-' ∧ c ≠ '+' := by
    intro c hc
    obtain ⟨e, rfl⟩ := hchar c (List.mem_of_head? hc)
    exact ⟨(hall e).2.1, (hall e).2.2.1⟩
  have hmark : ∀ x ∈ ['x', 'X'], (uuidDigits n).take 2 ≠ ['0', x] := by
    intro x hx htake
    have hmem : x ∈ uuidDigits n := List.mem_of_mem_take (htake ▸ by simp : x ∈ (uuidDigits n).take 2)
    obtain ⟨e, rfl⟩ := hchar x hmem
    rcases List.mem_cons.mp hx with h | h
    · exact (hall e).2.2.2.1 h
    · exact (hall e).2.2.2.2 (List.mem_singleton.mp h)
  have hread : readDigits 16 false 0 (uuidDigits n) = some n := by
    have hvalue := foldl_ofFn_digits 32 n
    have hpow : (16 : Nat) ^ 32 = 2 ^ 128 := by decide
    rw [hpow, Nat.mod_eq_of_lt hn] at hvalue
    have hfirst : readDigits 16 false 0 ((d :: ds).map Nat.digitChar)
        = readDigits 16 true 0 ((d :: ds).map Nat.digitChar) := by
      have hne : Nat.digitChar d ≠ '_' := by
        have hall : ∀ d : Fin 16, Nat.digitChar d.val ≠ '_' := by decide
        exact hall ⟨d, hlt d List.mem_cons_self⟩
      rw [List.map_cons, readDigits, readDigits, if_neg hne, if_neg hne]
    rw [uuidDigits_eq_map, hds, hfirst, readDigits_map_digitChar hlt, ← hds, hvalue]
  unfold intOfText
  simp only [String.toList_ofList, hstrip]
  have hminus : (uuidDigits n).head? ≠ some '-' := fun h => (hhead _ h).1 rfl
  have hplus : (uuidDigits n).head? ≠ some '+' := fun h => (hhead _ h).2 rfl
  have hx := hmark 'x' (by simp)
  have hX := hmark 'X' (by simp)
  simp only [hminus, hplus, hx, hX, or_self, and_false, if_false, hread]
  rfl

/-- **A UUID is read back from its text.** -/
theorem uuidOfText_uuidText {n : Nat} (hn : n < 2 ^ 128) : uuidOfText (uuidText n) = some n := by
  have hcolon : ':' ∉ (uuidText n).toList := not_mem_uuidText (by decide) (by decide) n
  have hbrace : ∀ c ∈ (uuidText n).toList, (decide (c = '\x7b') || decide (c = '\x7d')) = false := by
    intro c hc
    have hopen : '\x7b' ∉ (uuidText n).toList := not_mem_uuidText (by decide) (by decide) n
    have hclose : '\x7d' ∉ (uuidText n).toList := not_mem_uuidText (by decide) (by decide) n
    have h1 : c ≠ '\x7b' := fun h => hopen (h ▸ hc)
    have h2 : c ≠ '\x7d' := fun h => hclose (h ▸ hc)
    simp [h1, h2]
  have hlength : (uuidDigits n).length = 32 := List.length_ofFn
  unfold uuidOfText
  simp only [removeAll_of_not_mem (by decide : ':' ∈ ['u', 'r', 'n', ':']) _ hcolon,
    removeAll_of_not_mem (by decide : ':' ∈ ['u', 'u', 'i', 'd', ':']) _ hcolon,
    dropWhile_both_of_forall hbrace, filter_uuidText, hlength, intOfText_uuidDigits hn]
  simp only [ne_eq, not_true_eq_false, if_false, Int.toNat_natCast]
  rw [if_pos ⟨by omega, by omega⟩]

end Oecophylla.Python
