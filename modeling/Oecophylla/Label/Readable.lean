import Oecophylla.Label.Payload

namespace Oecophylla.Label

/-!
# Canonical payloads can be read back

A payload is compared as a text.  A reader that only keeps track of the nesting and of the string
literals finds the end of every value, so that the text of an object determines the texts of its
fields.

* `Place`, `Place.next` — the reader;
* `Reads` — the reader passes a text and is where it was before;
* `reads_write` — it passes the text of every document;
* `quote_injective` — a string literal determines its string;
* `writeFields_of_write_eq` — the text of an object determines the texts of its fields.
-/

/-- Where the reader of a JSON text is: how deep in brackets, and whether in a string literal. -/
inductive Place where
  | outside (depth : Nat)
  | inText (depth : Nat)
  | escaped (depth : Nat)
  deriving DecidableEq, Repr

/-- The next place; `none` at a character that ends the value. -/
def Place.next : Place → Char → Option Place
  | .outside depth, c =>
    if c = '\x22' then some (.inText depth)
    else if c = '[' ∨ c = '\x7b' then some (.outside (depth + 1))
    else if c = ']' ∨ c = '\x7d' then
      match depth with
      | 0 => none
      | depth + 1 => some (.outside depth)
    else if c = ',' ∨ c = ':' then (if depth = 0 then none else some (.outside depth))
    else some (.outside depth)
  | .inText depth, c =>
    if c = '\x22' then some (.outside depth)
    else if c = '\\' then some (.escaped depth)
    else some (.inText depth)
  | .escaped depth, _ => some (.inText depth)

/-- The characters that end a value. -/
def Ends (c : Char) : Prop := c = ',' ∨ c = ':' ∨ c = ']' ∨ c = '\x7d'

theorem next_of_ends {c : Char} (h : Ends c) : Place.next (.outside 0) c = none := by
  rcases h with rfl | rfl | rfl | rfl <;> rfl

/-- The reader passes the text. -/
def Reads (text : List Char) : Prop :=
  ∀ depth, text.foldlM Place.next (.outside depth) = some (.outside depth)

/-- The reader passes the text inside of brackets. -/
def ReadsInside (text : List Char) : Prop :=
  ∀ depth, text.foldlM Place.next (.outside (depth + 1)) = some (.outside (depth + 1))

theorem Reads.inside {text : List Char} (h : Reads text) : ReadsInside text :=
  fun depth => h (depth + 1)

theorem ReadsInside.append {s t : List Char} (hs : ReadsInside s) (ht : ReadsInside t) :
    ReadsInside (s ++ t) := by
  intro depth
  rw [List.foldlM_append, hs depth]
  exact ht depth

/-- **The end of a value.**  Where two texts that the reader passes are followed by characters that
    end a value, they are one text. -/
theorem Reads.cancel {s t rest rest' : List Char} {c c' : Char} (hs : Reads s) (ht : Reads t)
    (hc : Ends c) (hc' : Ends c') (h : s ++ c :: rest = t ++ c' :: rest') :
    s = t ∧ c = c' ∧ rest = rest' := by
  -- a longer text would be left at the end of the shorter one
  have hstop : ∀ {s t a rest : List Char} {c : Char}, Reads s → Reads t → Ends c →
      t = s ++ a → (∃ tail, c :: rest = a ++ tail) → a = [] := by
    intro s t a rest c hs ht hc heq hrest
    cases a with
    | nil => rfl
    | cons x a =>
      obtain ⟨tail, htail⟩ := hrest
      obtain ⟨rfl, -⟩ := List.cons.inj htail
      have hread := ht 0
      rw [heq, List.foldlM_append, hs 0] at hread
      simp [next_of_ends hc] at hread
  rcases List.append_eq_append_iff.mp h with ⟨a, ht', hrest⟩ | ⟨a, hs', hrest⟩
  · obtain rfl := hstop hs ht hc ht' ⟨_, hrest⟩
    rw [List.nil_append] at hrest
    exact ⟨by simpa using ht'.symm, List.cons.inj hrest⟩
  · obtain rfl := hstop ht hs hc' hs' ⟨_, hrest⟩
    rw [List.nil_append] at hrest
    obtain ⟨hcc, hrr⟩ := List.cons.inj hrest
    exact ⟨by simpa using hs', hcc.symm, hrr.symm⟩

/-! ### String literals -/

/-- A character of a string literal is passed. -/
theorem foldlM_escapeChar (c : Char) (depth : Nat) :
    (escapeChar c).toList.foldlM Place.next (.inText depth) = some (.inText depth) := by
  unfold escapeChar
  split_ifs with hquote hbackslash hn hr ht hb hf hcontrol
  iterate 7 rfl
  · -- `\\u00` and two hexadecimal digits
    have hdigit : ∀ n < 16, Place.next (.inText depth) (Nat.digitChar n) = some (.inText depth) := by
      intro n hn
      have hplain : ∀ n < 16, Nat.digitChar n ≠ '\x22' ∧ Nat.digitChar n ≠ '\\' := by decide
      obtain ⟨h₁, h₂⟩ := hplain n hn
      simp [Place.next, h₁, h₂]
    have hhigh := hdigit (c.toNat / 16) (by omega)
    have hlow := hdigit (c.toNat % 16) (by omega)
    have hprefix : "\\u00".toList.foldlM Place.next (.inText depth) = some (.inText depth) := rfl
    rw [String.toList_append, List.foldlM_append, hprefix, String.toList_ofList]
    simp [hhigh, hlow]
  · rw [String.toList_ofList]
    simp [Place.next, hquote, hbackslash]

theorem reads_quote (s : String) : Reads (quote s).toList := by
  intro depth
  have htext : ∀ l : List Char, (String.join (l.map escapeChar)).toList.foldlM Place.next
      (.inText depth) = some (.inText depth) := by
    intro l
    induction l with
    | nil => rfl
    | cons c l ih =>
      rw [List.map_cons, String.join_cons, String.toList_append, List.foldlM_append,
        foldlM_escapeChar]
      exact ih
  have hopen : "\"".toList.foldlM Place.next (.outside depth) = some (.inText depth) := rfl
  have hclose : "\"".toList.foldlM Place.next (.inText depth) = some (.outside depth) := rfl
  unfold quote
  rw [String.toList_append, String.toList_append, List.foldlM_append, List.foldlM_append, hopen]
  show ((String.join (s.toList.map escapeChar)).toList.foldlM Place.next (.inText depth) >>= _) = _
  rw [htext]
  exact hclose

/-- The first character of a string literal, read back. -/
def unescape : List Char → Option (Char × List Char)
  | '\\' :: 'u' :: _ :: _ :: a :: b :: rest =>
    let hex := (List.range 16).map Nat.digitChar
    some (Char.ofNat (hex.idxOf a * 16 + hex.idxOf b), rest)
  | '\\' :: c :: rest =>
    some (if c = 'n' then '\n' else if c = 'r' then '\r' else if c = 't' then '\t'
      else if c = 'b' then '\x08' else if c = 'f' then '\x0c' else c, rest)
  | c :: rest => some (c, rest)
  | [] => none

theorem unescape_escapeChar (c : Char) (rest : List Char) :
    unescape ((escapeChar c).toList ++ rest) = some (c, rest) := by
  unfold escapeChar
  split_ifs with hquote hbackslash hn hr ht hb hf hcontrol
  · rw [hquote]; rfl
  · rw [hbackslash]; rfl
  · rw [hn]; rfl
  · rw [hr]; rfl
  · rw [ht]; rfl
  · rw [hb]; rfl
  · rw [hf]; rfl
  · have hcode : ∀ n < 32, unescape ('\\' :: 'u' :: '0' :: '0' :: Nat.digitChar (n / 16)
        :: Nat.digitChar (n % 16) :: rest) = some (Char.ofNat n, rest) := by
      intro n hn
      have hindex : ∀ n < 32, ((List.range 16).map Nat.digitChar).idxOf (Nat.digitChar (n / 16)) * 16
          + ((List.range 16).map Nat.digitChar).idxOf (Nat.digitChar (n % 16)) = n := by decide
      simp only [unescape, hindex n hn]
    rw [String.toList_append, String.toList_ofList, String.toList_ofList]
    have h := hcode c.toNat hcontrol
    rw [Char.ofNat_toNat] at h
    exact h
  · rw [String.toList_ofList]
    simp [unescape, hbackslash]

/-- No character of a string literal looks like its end. -/
theorem escapeChar_ne_quote (c : Char) (rest tail : List Char) :
    (escapeChar c).toList ++ rest ≠ '\x22' :: tail := by
  intro h
  have hread := unescape_escapeChar c rest
  have hend : unescape ('\x22' :: tail) = some ('\x22', tail) := rfl
  rw [h, hend, Option.some.injEq, Prod.mk.injEq] at hread
  rw [← hread.1] at h
  exact absurd (List.cons.inj h).1 (by decide)

/-- The characters of a string literal determine its string. -/
theorem join_escapeChar_cancel {l l' rest rest' : List Char}
    (h : (String.join (l.map escapeChar)).toList ++ '\x22' :: rest
      = (String.join (l'.map escapeChar)).toList ++ '\x22' :: rest') : l = l' := by
  induction l generalizing l' with
  | nil =>
    cases l' with
    | nil => rfl
    | cons c l' =>
      rw [List.map_cons, String.join_cons, String.toList_append, List.append_assoc] at h
      exact absurd h.symm (escapeChar_ne_quote c _ _)
  | cons c l ih =>
    rw [List.map_cons, String.join_cons, String.toList_append, List.append_assoc] at h
    cases l' with
    | nil => exact absurd h (escapeChar_ne_quote c _ _)
    | cons c' l' =>
      rw [List.map_cons, String.join_cons, String.toList_append, List.append_assoc] at h
      have hread := congrArg unescape h
      rw [unescape_escapeChar, unescape_escapeChar, Option.some.injEq, Prod.mk.injEq] at hread
      rw [hread.1, ih hread.2]

theorem quote_injective : Function.Injective quote := by
  intro s t h
  have hlist := congrArg String.toList h
  unfold quote at hlist
  simp only [String.toList_append, List.append_assoc] at hlist
  exact String.toList_inj.mp (join_escapeChar_cancel (List.append_cancel_left hlist))

/-! ### Documents -/

/-- A character that means nothing to the reader outside of string literals. -/
def plainChar (c : Char) : Bool :=
  c != '\x22' && c != '[' && c != '\x7b' && c != ',' && c != ':' && c != ']' && c != '\x7d'

/-- A text without brackets, quotes and separators. -/
def Plain (text : String) : Prop := text.toList.all plainChar = true

theorem next_of_plainChar {c : Char} (h : plainChar c = true) (depth : Nat) :
    Place.next (.outside depth) c = some (.outside depth) := by
  simp only [plainChar, Bool.and_eq_true, bne_iff_ne] at h
  simp [Place.next, h]

theorem Plain.reads {text : String} (h : Plain text) : Reads text.toList := by
  intro depth
  unfold Plain at h
  generalize text.toList = l at h ⊢
  induction l with
  | nil => rfl
  | cons c l ih =>
    rw [List.all_cons, Bool.and_eq_true] at h
    rw [List.foldlM_cons, next_of_plainChar h.1]
    exact ih h.2

/-- What is in brackets is passed. -/
theorem Reads.array {text : List Char} (h : ReadsInside text) : Reads ('[' :: text ++ [']']) := by
  intro depth
  rw [List.cons_append, List.foldlM_cons]
  show (text ++ [']']).foldlM Place.next (.outside (depth + 1)) = _
  rw [List.foldlM_append, h depth]
  rfl

theorem Reads.object {text : List Char} (h : ReadsInside text) :
    Reads ('\x7b' :: text ++ ['\x7d']) := by
  intro depth
  rw [List.cons_append, List.foldlM_cons]
  show (text ++ ['\x7d']).foldlM Place.next (.outside (depth + 1)) = _
  rw [List.foldlM_append, h depth]
  rfl

/-- Parts with commas between them. -/
theorem readsInside_intercalate {parts : List String}
    (h : ∀ part ∈ parts, ReadsInside part.toList) :
    ReadsInside (String.intercalate "," parts).toList := by
  have hcomma : ReadsInside ",".toList := fun depth => rfl
  induction parts with
  | nil => exact fun depth => rfl
  | cons part parts ih =>
    have hpart := h part List.mem_cons_self
    have hrest := ih fun p hp => h p (List.mem_cons_of_mem _ hp)
    cases parts with
    | nil => rwa [String.intercalate_singleton]
    | cons next parts =>
      rw [String.intercalate_cons_cons, String.toList_append, String.toList_append]
      exact (hpart.append hcomma).append hrest

/-- A field of an object, as it is written. -/
def fieldText (f : String × String) : String := quote f.1 ++ ":" ++ f.2

theorem readsInside_fieldText {f : String × String} (h : Reads f.2.toList) :
    ReadsInside (fieldText f).toList := by
  have hcolon : ReadsInside ":".toList := fun depth => rfl
  unfold fieldText
  rw [String.toList_append, String.toList_append]
  exact ((reads_quote f.1).inside.append hcolon).append h.inside

section Write

/-- The numbers are plain, and the fields are only reordered. -/
structure Writer.Readable (w : Writer) : Prop where
  int : ∀ z, Plain (w.int z)
  float : ∀ d, Plain (w.float d)
  order : ∀ fields, (w.order fields).Perm fields

variable {w : Writer}

mutual
/-- **The reader passes the text of a document.** -/
theorem reads_write (hw : w.Readable) : ∀ v : Json, Reads (w.write v).toList
  | .null => (show Plain "null" by unfold Plain; decide).reads
  | .bool true => (show Plain "true" by unfold Plain; decide).reads
  | .bool false => (show Plain "false" by unfold Plain; decide).reads
  | .int z => (hw.int z).reads
  | .float d => (hw.float d).reads
  | .str s => reads_quote s
  | .arr items => by
    rw [Writer.write, String.toList_append, String.toList_append]
    exact Reads.array (readsInside_intercalate fun text htext =>
      (reads_writeItems hw items text htext).inside)
  | .obj fields => by
    rw [Writer.write, String.toList_append, String.toList_append]
    apply Reads.object
    apply readsInside_intercalate
    intro text htext
    obtain ⟨f, hf, rfl⟩ := List.mem_map.mp htext
    exact readsInside_fieldText (reads_writeFields hw fields f ((hw.order _).mem_iff.mp hf))

theorem reads_writeItems (hw : w.Readable) :
    ∀ (items : List Json), ∀ text ∈ w.writeItems items, Reads text.toList
  | [], _, h => nomatch h
  | v :: vs, text, h => by
    rw [Writer.writeItems] at h
    rcases List.mem_cons.mp h with rfl | h
    · exact reads_write hw v
    · exact reads_writeItems hw vs text h

theorem reads_writeFields (hw : w.Readable) :
    ∀ (fields : List (String × Json)), ∀ f ∈ w.writeFields fields, Reads f.2.toList
  | [], _, h => nomatch h
  | (k, v) :: fs, f, h => by
    rw [Writer.writeFields] at h
    rcases List.mem_cons.mp h with rfl | h
    · exact reads_write hw v
    · exact reads_writeFields hw fs f h
end

end Write

/-! ### The fields of an object -/

/-- The text of an object up to the end of its first field. -/
theorem text_cons (f : String × String) (fs : List (String × String)) (rest : List Char) :
    ∃ c tail, Ends c
      ∧ (String.intercalate "," ((f :: fs).map fieldText)).toList ++ '\x7d' :: rest
        = (quote f.1).toList ++ ':' :: (f.2.toList ++ c :: tail)
      ∧ (c = '\x7d' ∧ fs = []
        ∨ c = ',' ∧ tail = (String.intercalate "," (fs.map fieldText)).toList ++ '\x7d' :: rest) := by
  cases fs with
  | nil =>
    refine ⟨'\x7d', rest, .inr (.inr (.inr rfl)), ?_, .inl ⟨rfl, rfl⟩⟩
    simp [fieldText]
  | cons g fs =>
    refine ⟨',', _, .inl rfl, ?_, .inr ⟨rfl, rfl⟩⟩
    rw [List.map_cons, List.map_cons, String.intercalate_cons_cons]
    simp [fieldText]

/-- The text of the fields determines them. -/
theorem fields_of_text_eq {fs gs : List (String × String)} {rest rest' : List Char}
    (hf : ∀ f ∈ fs, Reads f.2.toList) (hg : ∀ g ∈ gs, Reads g.2.toList)
    (h : (String.intercalate "," (fs.map fieldText)).toList ++ '\x7d' :: rest
      = (String.intercalate "," (gs.map fieldText)).toList ++ '\x7d' :: rest') : fs = gs := by
  have hopen : ∀ (k : String) (tail tail' : List Char),
      '\x7d' :: tail ≠ (quote k).toList ++ tail' := by
    intro k tail tail' heq
    unfold quote at heq
    simp only [String.toList_append, List.append_assoc] at heq
    exact absurd (List.cons.inj heq).1 (by decide)
  have hcolon : Ends ':' := .inr (.inl rfl)
  induction fs generalizing gs with
  | nil =>
    cases gs with
    | nil => rfl
    | cons g gs =>
      obtain ⟨_, _, -, htext, -⟩ := text_cons g gs rest'
      rw [htext] at h
      exact absurd h (hopen _ _ _)
  | cons f fs ih =>
    obtain ⟨c, tail, hc, htext, hnext⟩ := text_cons f fs rest
    rw [htext] at h
    cases gs with
    | nil => exact absurd h.symm (hopen _ _ _)
    | cons g gs =>
      obtain ⟨c', tail', hc', htext', hnext'⟩ := text_cons g gs rest'
      rw [htext'] at h
      -- first the names, then the values, then what follows them
      obtain ⟨hname, -, h⟩ := (reads_quote f.1).cancel (reads_quote g.1) hcolon hcolon h
      obtain ⟨hvalue, rfl, rfl⟩ := (hf f List.mem_cons_self).cancel (hg g List.mem_cons_self) hc hc' h
      have hfg : f = g :=
        Prod.ext (quote_injective (String.toList_inj.mp hname)) (String.toList_inj.mp hvalue)
      have hrest : fs = gs := by
        rcases hnext with ⟨rfl, rfl⟩ | ⟨rfl, rfl⟩
        · rcases hnext' with ⟨-, rfl⟩ | ⟨hcomma, -⟩
          · rfl
          · exact absurd hcomma (by decide)
        · rcases hnext' with ⟨hbrace, -⟩ | ⟨-, htail⟩
          · exact absurd hbrace (by decide)
          · exact ih (fun f' h' => hf f' (List.mem_cons_of_mem _ h'))
              (fun g' h' => hg g' (List.mem_cons_of_mem _ h')) htail
      rw [hfg, hrest]

/-- **The text of an object determines the texts of its fields.** -/
theorem writeFields_of_write_eq {w : Writer} (hw : w.Readable) {o o' : Object}
    (h : w.write (.obj o) = w.write (.obj o')) :
    w.order (w.writeFields o) = w.order (w.writeFields o') := by
  have hreads : ∀ o : Object, ∀ f ∈ w.order (w.writeFields o), Reads f.2.toList :=
    fun o f hf => reads_writeFields hw o f ((hw.order _).mem_iff.mp hf)
  have hlist := congrArg String.toList h
  rw [Writer.write, Writer.write] at hlist
  simp only [String.toList_append, List.append_assoc] at hlist
  exact fields_of_text_eq (hreads o) (hreads o') (List.append_cancel_left hlist)

theorem lookup_writeFields (w : Writer) (o : Object) (name : String) :
    (w.writeFields o).lookup name = (o.get name).map w.write := by
  induction o with
  | nil => rfl
  | cons f o ih =>
    obtain ⟨k, v⟩ := f
    rw [Writer.writeFields, Object.get_cons]
    by_cases hname : name = k
    · simp [hname]
    · have hbeq : (name == k) = false := by simpa using hname
      simp only [List.lookup_cons, hbeq, hname, if_false]
      exact ih

/-- What is found under a name is what the first field of that name holds. -/
theorem lookup_eq_head_filter (fields : List (String × String)) (name : String) :
    fields.lookup name = ((fields.filter fun f => f.1 == name).head?).map Prod.snd := by
  induction fields with
  | nil => rfl
  | cons f fields ih =>
    obtain ⟨k, v⟩ := f
    by_cases hname : name = k
    · simp [hname]
    · have hbeq : (name == k) = false := by simpa using hname
      rw [List.lookup_cons, hbeq, List.filter_cons_of_neg (by simpa using Ne.symm hname)]
      exact ih

/-- Sorting by name keeps what is found under a name: the sort is stable, so that the first field of
    a name stays the first. -/
theorem lookup_byName (fields : List (String × String)) (name : String) :
    (byName fields).lookup name = fields.lookup name := by
  have hties : ∀ a ∈ fields, ∀ b ∈ fields, (a.1 == name) = true → (b.1 == name) = true →
      (Lib.compareBy compare Prod.fst a b).isLE = true := by
    intro a _ b _ ha hb
    rw [beq_iff_eq] at ha hb
    simp [Lib.compareBy, ha, hb]
  rw [lookup_eq_head_filter, lookup_eq_head_filter, byName,
    Lib.filter_stableSort_of_ties _ hties]

/-- Objects with one text have the same texts under every name. -/
theorem get_of_write_eq {w : Writer} (hw : w.Readable) (horder : w.order = byName) {o o' : Object}
    (h : w.write (.obj o) = w.write (.obj o')) (name : String) :
    (o.get name).map w.write = (o'.get name).map w.write := by
  have hfields := writeFields_of_write_eq hw h
  rw [horder] at hfields
  rw [← lookup_writeFields, ← lookup_writeFields, ← lookup_byName, hfields, lookup_byName]

end Oecophylla.Label
