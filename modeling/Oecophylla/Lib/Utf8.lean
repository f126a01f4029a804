import Mathlib.Data.List.Basic
import Mathlib.Data.Char
import Mathlib.Data.List.Induction
import Mathlib.Data.List.Lex

namespace Oecophylla.Lib

/-!
# Texts as UTF-8 bytes

* `utf8` — the bytes of a list of characters; `toList_toUTF8`, `fromUTF8?_utf8` for strings;
* `mem_utf8EncodeChar` — an ASCII byte is the whole encoding of its character;
* `utf8_lt_iff` — the order of code points is the order of bytes;
* `utf8_splitOnP`, `utf8_rstrip` — cutting at ASCII characters.
-/

/-- The bytes of a text. -/
def utf8 (cs : List Char) : List UInt8 := cs.flatMap String.utf8EncodeChar

@[simp] theorem utf8_nil : utf8 [] = [] := rfl

theorem utf8_cons (c : Char) (cs : List Char) :
    utf8 (c :: cs) = String.utf8EncodeChar c ++ utf8 cs := rfl

theorem utf8_append (cs cs' : List Char) : utf8 (cs ++ cs') = utf8 cs ++ utf8 cs' :=
  List.flatMap_append

/-! ### Strings -/

private theorem toList_loop (bytes : ByteArray) (rest : ℕ) :
    ∀ (i : ℕ) (r : List UInt8), bytes.size - i = rest →
      ByteArray.toList.loop bytes i r = r.reverse ++ bytes.data.toList.drop i := by
  induction rest with
  | zero =>
    intro i r h
    have hout : ¬ i < bytes.size := by omega
    have hdrop : bytes.data.toList.drop i = [] := by
      apply List.drop_eq_nil_of_le
      rw [Array.length_toList]
      exact Nat.le_of_sub_eq_zero h
    rw [ByteArray.toList.loop, if_neg hout, hdrop, List.append_nil]
  | succ rest ih =>
    intro i r h
    have hin : i < bytes.size := by omega
    have hdrop := List.drop_eq_getElem_cons (show i < bytes.data.toList.length from hin)
    rw [ByteArray.toList.loop, if_pos hin, ih (i + 1) _ (by omega), hdrop]
    simp [ByteArray.get!, hin]

theorem toList_toUTF8 (s : String) : s.toUTF8.toList = utf8 s.toList := by
  have hbytes : s.toUTF8 = (utf8 s.toList).toByteArray := by
    rw [String.toUTF8_eq_toByteArray, ← String.utf8Encode_toList]
    rfl
  rw [hbytes, ByteArray.toList, toList_loop _ _ 0 [] rfl, List.toList_data_toByteArray]
  rfl

theorem fromUTF8?_utf8 (cs : List Char) :
    String.fromUTF8? ⟨(utf8 cs).toArray⟩ = some (String.ofList cs) := by
  have hbytes : (⟨(utf8 cs).toArray⟩ : ByteArray) = cs.utf8Encode := by
    apply ByteArray.ext
    apply Array.toList_inj.mp
    exact (List.toList_data_toByteArray (l := utf8 cs)).symm
  have hvalid : (⟨(utf8 cs).toArray⟩ : ByteArray).IsValidUTF8 := by
    rw [hbytes]
    exact ByteArray.isValidUTF8_utf8Encode
  rw [String.fromUTF8?, dif_pos hvalid, Option.some.injEq, ← String.toByteArray_inj,
    String.toByteArray_ofList, ← hbytes]
  rfl

/-! ### Characters -/

theorem utf8EncodeChar_ascii {a : Char} (ha : a.toNat < 128) :
    String.utf8EncodeChar a = [UInt8.ofNat a.toNat] := by
  have hvalue : a.val.toNat ≤ 127 := Nat.le_of_lt_succ ha
  unfold String.utf8EncodeChar
  rw [if_pos hvalue]
  rfl

/-- A byte below 128 is the whole encoding of its character. -/
theorem mem_utf8EncodeChar {c : Char} {b : UInt8} (h : b ∈ String.utf8EncodeChar c)
    (hb : b.toNat < 128) : String.utf8EncodeChar c = [b] ∧ c.toNat = b.toNat := by
  have hvalue : c.val.toNat = c.toNat := rfl
  have hsmall : ∀ n : ℕ, b = UInt8.ofNat n → n < 256 → b.toNat = n := by
    rintro n rfl hn
    rw [UInt8.toNat_ofNat', Nat.mod_eq_of_lt hn]
  unfold String.utf8EncodeChar at h ⊢
  simp only [hvalue] at h ⊢
  split_ifs at h ⊢ with h₁ h₂ h₃
  · rw [List.mem_singleton] at h
    exact ⟨by rw [h], (hsmall _ h (by omega)).symm⟩
  -- the bytes of a longer encoding are at least 128
  · simp only [List.mem_cons, List.not_mem_nil, or_false] at h
    rcases h with h | h <;> (have hnat := hsmall _ h (by omega); omega)
  · simp only [List.mem_cons, List.not_mem_nil, or_false] at h
    rcases h with h | h | h <;> (have hnat := hsmall _ h (by omega); omega)
  · simp only [List.mem_cons, List.not_mem_nil, or_false] at h
    rcases h with h | h | h | h <;> (have hnat := hsmall _ h (by omega); omega)

/-- The order of two characters is the order of their bytes, whatever follows. -/
theorem utf8EncodeChar_append_lt {c d : Char} (h : c < d) (xs ys : List UInt8) :
    String.utf8EncodeChar c ++ xs < String.utf8EncodeChar d ++ ys := by
  have hlt : c.val.toNat < d.val.toNat := h
  have hc : c.val.toNat < 0x110000 := by
    rcases c.valid with hv | hv <;> omega
  have hd : d.val.toNat < 0x110000 := by
    rcases d.valid with hv | hv <;> omega
  have hbyte : ∀ m n : ℕ, m < 256 → n < 256 → (UInt8.ofNat m < UInt8.ofNat n ↔ m < n) := by
    intro m n hm hn
    rw [UInt8.lt_iff_toNat_lt, UInt8.toNat_ofNat', UInt8.toNat_ofNat', Nat.mod_eq_of_lt hm,
      Nat.mod_eq_of_lt hn]
  have hsame : ∀ m n : ℕ, m < 256 → n < 256 → (UInt8.ofNat m = UInt8.ofNat n ↔ m = n) := by
    intro m n hm hn
    rw [← UInt8.toNat_inj, UInt8.toNat_ofNat', UInt8.toNat_ofNat', Nat.mod_eq_of_lt hm,
      Nat.mod_eq_of_lt hn]
  have hdigits : ∀ n : ℕ, n / 4096 = n / 64 / 64 ∧ n / 262144 = n / 4096 / 64 := by
    intro n
    rw [Nat.div_div_eq_div_mul, Nat.div_div_eq_div_mul]
    exact ⟨rfl, rfl⟩
  obtain ⟨hc₁, hc₂⟩ := hdigits c.val.toNat
  obtain ⟨hd₁, hd₂⟩ := hdigits d.val.toNat
  have hc₃ : c.val.toNat / 262144 % 8 = c.val.toNat / 262144 := Nat.mod_eq_of_lt (by omega)
  have hd₃ : d.val.toNat / 262144 % 8 = d.val.toNat / 262144 := Nat.mod_eq_of_lt (by omega)
  unfold String.utf8EncodeChar
  simp only
  split_ifs <;> simp only [List.cons_append, List.cons_lt_cons_iff] <;>
    simp (disch := omega) only [hbyte, hsame] <;> omega

/-- **The order of code points is the order of bytes.** -/
theorem utf8_lt_iff {cs ds : List Char} : utf8 cs < utf8 ds ↔ cs < ds := by
  have hforward : ∀ {cs ds : List Char}, cs < ds → utf8 cs < utf8 ds := by
    intro cs ds h
    induction cs generalizing ds with
    | nil =>
      cases ds with
      | nil => exact absurd h (List.not_lt_nil _)
      | cons d ds =>
        rw [utf8_nil, utf8_cons]
        have hne : String.utf8EncodeChar d ≠ [] := String.utf8EncodeChar_ne_nil
        obtain ⟨b, bs, hb⟩ := List.exists_cons_of_ne_nil hne
        rw [hb]
        exact List.nil_lt_cons _ _
    | cons c cs ih =>
      cases ds with
      | nil => exact absurd h (List.not_lt_nil _)
      | cons d ds =>
        rw [utf8_cons, utf8_cons]
        rcases List.cons_lt_cons_iff.mp h with hlt | ⟨rfl, hlt⟩
        · exact utf8EncodeChar_append_lt hlt _ _
        · exact List.append_left_lt (ih hlt)
  constructor
  · intro h
    rcases lt_trichotomy cs ds with hlt | rfl | hgt
    · exact hlt
    · exact absurd h (List.lt_irrefl _)
    · exact absurd h (List.lt_asymm (hforward hgt))
  · exact hforward

/-- The byte of an ASCII character is in the encoding of that character only. -/
theorem beq_byte {a : Char} (ha : a.toNat < 128) {c : Char} {b : UInt8}
    (hb : b ∈ String.utf8EncodeChar c) : (b == UInt8.ofNat a.toNat) = (c == a) := by
  have hbyte : (UInt8.ofNat a.toNat).toNat = a.toNat := by
    rw [UInt8.toNat_ofNat', Nat.mod_eq_of_lt (by omega)]
  rw [Bool.eq_iff_iff, beq_iff_eq, beq_iff_eq]
  constructor
  · rintro rfl
    obtain ⟨-, hc⟩ := mem_utf8EncodeChar hb (by omega)
    rw [hbyte] at hc
    exact Char.ext (UInt32.toNat_inj.mp hc)
  · rintro rfl
    rw [utf8EncodeChar_ascii ha, List.mem_singleton] at hb
    exact hb

/-! ### Cutting at characters -/

section Cut

variable {p : UInt8 → Bool} {q : Char → Bool}
  (hcut : ∀ c, ∀ b ∈ String.utf8EncodeChar c, p b = q c)
  (hsingle : ∀ c, q c = true → (String.utf8EncodeChar c).length = 1)
include hcut hsingle

theorem utf8_splitOnP (cs : List Char) : (utf8 cs).splitOnP p = (cs.splitOnP q).map utf8 := by
  have hprefix : ∀ l r : List UInt8, (∀ b ∈ l, p b = false) →
      (l ++ r).splitOnP p = (r.splitOnP p).modifyHead (l ++ ·) := by
    intro l r hl
    induction l with
    | nil =>
      obtain ⟨d, ds, hd⟩ := List.exists_cons_of_ne_nil (List.splitOnP_ne_nil p r)
      rw [List.nil_append, hd]
      rfl
    | cons b l ih =>
      rw [List.cons_append, List.splitOnP_cons_eq_if_modifyHead, if_neg (by simp [hl b]),
        ih fun x hx => hl x (List.mem_cons_of_mem b hx)]
      cases r.splitOnP p <;> rfl
  induction cs with
  | nil => simp
  | cons c cs ih =>
    rw [utf8_cons, List.splitOnP_cons_eq_if_modifyHead]
    by_cases hc : q c = true
    · obtain ⟨b, hb⟩ := List.length_eq_one_iff.mp (hsingle c hc)
      have hpb : p b = true := by rw [hcut c b (by simp [hb]), hc]
      rw [hb, List.singleton_append, List.splitOnP_cons_eq_if_modifyHead, if_pos hpb, if_pos hc, ih]
      rfl
    · rw [if_neg hc, hprefix _ _ fun b hb => by simpa [hc] using hcut c b hb, ih]
      cases cs.splitOnP q with
      | nil => rfl
      | cons d ds => rfl

theorem utf8_dropEnd (cs : List Char) :
    ((utf8 cs).reverse.dropWhile p).reverse = utf8 (cs.reverse.dropWhile q).reverse := by
  induction cs using List.reverseRecOn with
  | nil => rfl
  | append_singleton cs c ih =>
    have hone : utf8 [c] = String.utf8EncodeChar c := List.append_nil _
    rw [utf8_append, hone, List.reverse_append, List.reverse_append, List.reverse_singleton,
      List.singleton_append, List.dropWhile_cons]
    by_cases hc : q c = true
    · obtain ⟨b, hb⟩ := List.length_eq_one_iff.mp (hsingle c hc)
      have hpb : p b = true := by rw [hcut c b (by simp [hb]), hc]
      rw [if_pos hc, hb, List.reverse_singleton, List.singleton_append, List.dropWhile_cons,
        if_pos hpb, ih]
    · -- the last byte is not cut off, so that nothing is
      have hne : String.utf8EncodeChar c ≠ [] := String.utf8EncodeChar_ne_nil
      obtain ⟨bs, b, hb⟩ : ∃ bs b, String.utf8EncodeChar c = bs ++ [b] :=
        ⟨_, _, (List.dropLast_append_getLast hne).symm⟩
      have hpb : p b = false := by
        have h := hcut c b (by simp [hb])
        simpa [hc] using h
      rw [if_neg hc, hb, List.reverse_append, List.reverse_singleton, List.singleton_append,
        List.cons_append, List.dropWhile_cons, if_neg (by simp [hpb])]
      simp [utf8_append, hone, hb]

end Cut

end Oecophylla.Lib
