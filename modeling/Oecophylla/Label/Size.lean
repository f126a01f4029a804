import Mathlib.Algebra.BigOperators.Group.List.Basic
import Mathlib.Algebra.Order.Group.Nat
import Oecophylla.Label.Payload

namespace Oecophylla.Label

/-!
# How long a document is

The text of an object is bounded by the texts of its fields, whatever their order:

* `utf8ByteSize_quote_le` — a string literal;
* `fieldSize` — what a field adds at most;
* `utf8ByteSize_write_obj_le` — an object.
-/

theorem utf8ByteSize_ofList (l : List Char) :
    (String.ofList l).utf8ByteSize = (l.map Char.utf8Size).sum := by
  induction l with
  | nil => rfl
  | cons c l ih =>
    rw [String.ofList_cons, String.utf8ByteSize_append, String.utf8ByteSize_singleton, ih,
      List.map_cons, List.sum_cons]

/-- A text has at most four bytes for each character. -/
theorem utf8ByteSize_le (s : String) : s.utf8ByteSize ≤ 4 * s.length := by
  have hlist : ∀ l : List Char, (l.map Char.utf8Size).sum ≤ 4 * l.length := by
    intro l
    induction l with
    | nil => simp
    | cons c l ih =>
      have hc := Char.utf8Size_le_four c
      rw [List.map_cons, List.sum_cons, List.length_cons]
      omega
  have hsize := utf8ByteSize_ofList s.toList
  rw [String.ofList_toList] at hsize
  rw [hsize, ← String.length_toList]
  exact hlist s.toList

/-- An escape has six bytes at most, and any other character stays as it is. -/
theorem utf8ByteSize_escapeChar_le (c : Char) : (escapeChar c).utf8ByteSize ≤ 6 * c.utf8Size := by
  have hpos := Char.utf8Size_pos c
  have hshort : ∀ text : String, text.utf8ByteSize ≤ 6 → text.utf8ByteSize ≤ 6 * c.utf8Size := by
    intro text htext
    omega
  unfold escapeChar
  split_ifs with _ _ _ _ _ _ _ hcontrol
  · exact hshort "\\\"" (by decide)
  · exact hshort "\\\\" (by decide)
  · exact hshort "\\n" (by decide)
  · exact hshort "\\r" (by decide)
  · exact hshort "\\t" (by decide)
  · exact hshort "\\b" (by decide)
  · exact hshort "\\f" (by decide)
  · -- `\\u00` and two hexadecimal digits
    have hdigit : ∀ n < 16, (Nat.digitChar n).utf8Size = 1 := by decide
    have hlow : c.toNat % 16 < 16 := Nat.mod_lt _ (by decide)
    have hhigh : c.toNat / 16 < 16 := by omega
    have hopen : "\\u00".utf8ByteSize = 4 := by decide
    refine hshort _ ?_
    rw [String.utf8ByteSize_append, hopen, utf8ByteSize_ofList]
    simp [hdigit _ hlow, hdigit _ hhigh]
  · rw [utf8ByteSize_ofList]
    simp only [List.map_cons, List.map_nil, List.sum_cons, List.sum_nil]
    omega

/-- **A string literal.** -/
theorem utf8ByteSize_quote_le (s : String) : (quote s).utf8ByteSize ≤ 2 + 6 * s.utf8ByteSize := by
  have hlist : ∀ l : List Char, (String.join (l.map escapeChar)).utf8ByteSize
      ≤ 6 * (l.map Char.utf8Size).sum := by
    intro l
    induction l with
    | nil => exact Nat.zero_le _
    | cons c l ih =>
      have hc := utf8ByteSize_escapeChar_le c
      rw [List.map_cons, String.join_cons, String.utf8ByteSize_append, List.map_cons, List.sum_cons]
      omega
  have hsize := utf8ByteSize_ofList s.toList
  rw [String.ofList_toList] at hsize
  have hbody := hlist s.toList
  have hmark : "\"".utf8ByteSize = 1 := by decide
  unfold quote
  rw [String.utf8ByteSize_append, String.utf8ByteSize_append, hmark]
  omega

/-- Parts with commas between them. -/
theorem utf8ByteSize_intercalate_le (parts : List String) :
    (String.intercalate "," parts).utf8ByteSize
      ≤ (parts.map fun part => part.utf8ByteSize + 1).sum := by
  have hcomma : ",".utf8ByteSize = 1 := by decide
  induction parts with
  | nil => exact Nat.zero_le _
  | cons part parts ih =>
    cases parts with
    | nil =>
      rw [String.intercalate_singleton, List.map_singleton, List.sum_singleton]
      omega
    | cons next parts =>
      rw [String.intercalate_cons_cons, String.utf8ByteSize_append, String.utf8ByteSize_append,
        hcomma, List.map_cons, List.sum_cons]
      omega

/-- What a field adds to the text of an object, at most: its name in quotes, its value, the colon and
    a comma. -/
def fieldSize (w : Writer) (f : String × Json) : Nat :=
  6 * f.1.utf8ByteSize + (w.write f.2).utf8ByteSize + 4

/-- **The text of an object** is as long as its fields make it, in any order. -/
theorem utf8ByteSize_write_obj_le (w : Writer) (horder : ∀ fields, (w.order fields).Perm fields)
    (fields : Object) :
    (w.write (.obj fields)).utf8ByteSize ≤ 2 + (fields.map (fieldSize w)).sum := by
  have hopen : "\x7b".utf8ByteSize = 1 := by decide
  have hclose : "\x7d".utf8ByteSize = 1 := by decide
  have hcolon : ":".utf8ByteSize = 1 := by decide
  have hfields : ((w.writeFields fields).map fun f => (quote f.1 ++ ":" ++ f.2).utf8ByteSize + 1).sum
      ≤ (fields.map (fieldSize w)).sum := by
    induction fields with
    | nil => exact Nat.zero_le _
    | cons f fields ih =>
      have hname := utf8ByteSize_quote_le f.1
      simp only [Writer.writeFields, List.map_cons, List.sum_cons, fieldSize,
        String.utf8ByteSize_append, hcolon] at ih ⊢
      omega
  have hparts := utf8ByteSize_intercalate_le
    ((w.order (w.writeFields fields)).map fun f => quote f.1 ++ ":" ++ f.2)
  rw [List.map_map] at hparts
  have hsum := ((horder (w.writeFields fields)).map
    fun f => (quote f.1 ++ ":" ++ f.2).utf8ByteSize + 1).sum_eq
  show ("\x7b" ++ String.intercalate "," _ ++ "\x7d").utf8ByteSize ≤ _
  rw [String.utf8ByteSize_append, String.utf8ByteSize_append, hopen, hclose]
  have hle := (hparts.trans (le_of_eq hsum)).trans hfields
  omega

end Oecophylla.Label
