import Oecophylla.Lib.Lines
import Oecophylla.Lib.OrderedDict
import Oecophylla.Mind.Sampling

namespace Oecophylla.Mind

open Content (unixLines)
open Lib (OrderedDict linesOf linesOf_flatMap splitOnP_flatMap exists_fewer_fields utf8 utf8_dropEnd
  utf8_splitOnP beq_byte except_bind_eq_ok mapM_eq_ok_iff)

/-!
# Two readers of the MIND files — `ai_pipeline/mind_adapter.py` and `mind_large.py`

* `splitlines`, `readText` — how the adapter reads a file;
* `parseNews` — `_parse_news`; `newsRecords`, `behaviorRecords` — the records of the two files;
* `largeNewsRecords` — the records that `prepare_dataset` reads of `news.tsv`;
* `Record`, `fileOf` — a record, and the file of some records;
* `adapterRecords_fileOf` — the adapter reads the records exactly if no field has a line break;
* `largeNewsRecords_fileOf`, `sampleBehaviors_fileOf` — the other reader always does;
* `readers_agree_iff` — when the two agree.
-/

/-! ### The adapter -/

/-- The characters at which `str.splitlines` ends a line. -/
def lineBreaks : List ℕ := [0xa, 0xb, 0xc, 0xd, 0x1c, 0x1d, 0x1e, 0x85, 0x2028, 0x2029]

def isLineBreak (c : Char) : Bool := lineBreaks.contains c.toNat

/-- `text.splitlines()`; a carriage return and a newline are one end. -/
def splitlines (text : List Char) : List (List Char) :=
  let pieces := (unixLines text).splitOnP isLineBreak
  if pieces.getLast? = some [] then pieces.dropLast else pieces

/-- `path.read_text(encoding="utf-8")`, with universal newlines. -/
def readText (data : Bytes) : Except Raised (List Char) := do
  let text ← decode data
  pure (unixLines text.toList)

/-- `raw_line.split("\t")`. -/
def fieldsOfLine (line : List Char) : List String := (line.splitOn '\t').map String.ofList

/-- `_MindArticle`. -/
structure MindArticle where
  sourceId : String
  category : String
  subcategory : String
  title : String
  abstract : String
  deriving DecidableEq, Repr

/-- The fields of a line, and the error of a line that does not have `width` of them. -/
def recordOf (width : ℕ) (malformed : ℕ → String) (numbered : List Char × ℕ) :
    Except Raised (List String) :=
  let fields := fieldsOfLine numbered.1
  if fields.length ≠ width then .error (.valueError (malformed numbered.2)) else .ok fields

def malformedNews (lineNumber : ℕ) : String :=
  s!"news.tsv line {lineNumber} must contain 8 tab-separated fields"

def malformedBehavior (lineNumber : ℕ) : String :=
  s!"behaviors.tsv line {lineNumber} must contain 5 tab-separated fields"

/-- What `_parse_news` does with the fields of a line. -/
def storeArticle (articles : OrderedDict String MindArticle) (lineNumber : ℕ) :
    List String → Except Raised (OrderedDict String MindArticle)
  | [sourceId, category, subcategory, title, abstract, _, _, _] =>
    if sourceId = "" ∨ (Oecophylla.Python.strip title.toList = []
        ∧ Oecophylla.Python.strip abstract.toList = []) then
      .error (.valueError s!"news.tsv line {lineNumber} has no usable article text")
    else
      let article : MindArticle := ⟨sourceId, category, subcategory, title, abstract⟩
      match articles.get sourceId with
      | none => .ok (articles.set sourceId article)
      | some existing =>
        if existing ≠ article then
          .error (.valueError s!"conflicting duplicate MIND article at line {lineNumber}")
        else .ok articles
  | _ => .error (.valueError (malformedNews lineNumber))

/-- One line of `_parse_news`. -/
def parseNewsLine (articles : OrderedDict String MindArticle) (numbered : List Char × ℕ) :
    Except Raised (OrderedDict String MindArticle) := do
  let fields ← recordOf 8 malformedNews numbered
  storeArticle articles numbered.2 fields

/-- `_parse_news(path)`. -/
def parseNews (data : Bytes) : Except Raised (OrderedDict String MindArticle) := do
  let text ← readText data
  let articles ← ((splitlines text).zipIdx 1).foldlM parseNewsLine []
  if articles = [] then .error (.valueError "news.tsv must contain at least one article")
  else pure articles

/-- The records that a loop of the adapter reads. -/
def adapterRecords (width : ℕ) (malformed : ℕ → String) (data : Bytes) :
    Except Raised (List (List String)) := do
  let text ← readText data
  ((splitlines text).zipIdx 1).mapM (recordOf width malformed)

/-- The records of `_parse_news`. -/
def newsRecords (data : Bytes) : Except Raised (List (List String)) :=
  adapterRecords 8 malformedNews data

/-- The records of the loop of `adapt_mind`. -/
def behaviorRecords (data : Bytes) : Except Raised (List (List String)) :=
  adapterRecords 5 malformedBehavior data

/-- A file whose articles are returned is a file whose records are read. -/
theorem newsRecords_of_parseNews {data : Bytes} {articles : OrderedDict String MindArticle}
    (h : parseNews data = .ok articles) : ∃ records, newsRecords data = .ok records := by
  have hloop : ∀ (numbered : List (List Char × ℕ)) (start final : OrderedDict String MindArticle),
      numbered.foldlM parseNewsLine start = .ok final →
        ∃ records, numbered.mapM (recordOf 8 malformedNews) = .ok records := by
    intro numbered
    induction numbered with
    | nil => exact fun _ _ _ => ⟨[], rfl⟩
    | cons line lines ih =>
      intro start final hfold
      rw [List.foldlM_cons, except_bind_eq_ok] at hfold
      obtain ⟨next, hline, hrest⟩ := hfold
      rw [parseNewsLine, except_bind_eq_ok] at hline
      obtain ⟨fields, hfields, -⟩ := hline
      obtain ⟨records, hrecords⟩ := ih next final hrest
      refine ⟨fields :: records, ?_⟩
      rw [List.mapM_cons, hfields, hrecords]
      rfl
  rw [parseNews, except_bind_eq_ok] at h
  obtain ⟨text, htext, h⟩ := h
  rw [except_bind_eq_ok] at h
  obtain ⟨final, hfold, -⟩ := h
  obtain ⟨records, hrecords⟩ := hloop _ _ _ hfold
  refine ⟨records, ?_⟩
  rw [newsRecords, adapterRecords, htext]
  exact hrecords

/-! ### The compact dataset -/

/-- The lines of a text file, with universal newlines. -/
def textLines (text : String) : List String :=
  (linesOf (· == '\n') (unixLines text.toList)).map String.ofList

/-- The lines of a binary file. -/
def byteLines (data : Bytes) : List Bytes := linesOf (· == 10) data

/-- The fields of a line of `news.tsv` in `prepare_dataset`. -/
def newsFields (line : String) : Except Raised (List String) :=
  let fields := fieldsOfText line
  if fields.length ≠ 8 then .error (.valueError "news.tsv must have eight fields") else .ok fields

/-- The records that `prepare_dataset` reads of `news.tsv`. -/
def largeNewsRecords (data : Bytes) : Except Raised (List (List String)) := do
  let text ← decode data
  (textLines text).mapM newsFields

/-- `prepare_dataset` goes through these records: where one is malformed, it raises. -/
theorem largeNewsRecords_of_readNews (rt : Runtime) {salt : String} {needed : List String}
    {data : Bytes} {text : String} (htext : decode data = .ok text)
    {start final : List (String × Article)}
    (h : (textLines text).foldlM (readNews rt salt needed) start = .ok final) :
    ∃ records, largeNewsRecords data = .ok records := by
  have hloop : ∀ (lines : List String) (start final : List (String × Article)),
      lines.foldlM (readNews rt salt needed) start = .ok final →
        ∃ records, lines.mapM newsFields = .ok records := by
    intro lines
    induction lines with
    | nil => exact fun _ _ _ => ⟨[], rfl⟩
    | cons line lines ih =>
      intro start final hfold
      rw [List.foldlM_cons, except_bind_eq_ok] at hfold
      obtain ⟨next, hline, hrest⟩ := hfold
      have hfields : newsFields line = .ok (fieldsOfText line) := by
        unfold newsFields
        unfold readNews at hline
        by_cases hwidth : (fieldsOfText line).length ≠ 8
        · simp [hwidth] at hline
        · simp only [hwidth, if_false]
      obtain ⟨records, hrecords⟩ := ih next final hrest
      refine ⟨fieldsOfText line :: records, ?_⟩
      rw [List.mapM_cons, hfields, hrecords]
      rfl
  obtain ⟨records, hrecords⟩ := hloop _ _ _ h
  refine ⟨records, ?_⟩
  rw [largeNewsRecords, htext]
  exact hrecords

/-! ### Files of records -/

/-- A record of `width` fields without newlines, carriage returns and tabs. -/
structure Record (width : ℕ) (fields : List String) : Prop where
  length : fields.length = width
  chars : ∀ field ∈ fields, ∀ c ∈ field.toList, c ≠ '\n' ∧ c ≠ '\r' ∧ c ≠ '\t'

/-- The line of a record. -/
def lineOf (fields : List String) : List Char := ['\t'].intercalate (fields.map String.toList)

/-- The text of a file of records. -/
def textOf (records : List (List String)) : List Char :=
  (records.map lineOf).flatMap fun line => line ++ ['\n']

/-- A file of records. -/
def fileOf (records : List (List String)) : Bytes := utf8 (textOf records)

/-- Some field has a character at which `str.splitlines` ends a line. -/
def HasLineBreak (fields : List String) : Prop :=
  ∃ field ∈ fields, ∃ c ∈ field.toList, isLineBreak c

theorem mem_lineOf {fields : List String} {c : Char} :
    c ∈ lineOf fields → c = '\t' ∨ ∃ field ∈ fields, c ∈ field.toList := by
  induction fields with
  | nil => simp [lineOf]
  | cons field fields ih =>
    intro h
    cases fields with
    | nil =>
      rw [lineOf, List.map_singleton, List.intercalate_singleton] at h
      exact .inr ⟨field, by simp, h⟩
    | cons next fields =>
      rw [lineOf, List.map_cons, List.map_cons, List.intercalate_cons_cons, List.append_assoc,
        List.singleton_append, List.mem_append, List.mem_cons] at h
      rcases h with h | h | h
      · exact .inr ⟨field, by simp, h⟩
      · exact .inl h
      · rcases ih h with h | ⟨f, hf, hc⟩
        · exact .inl h
        · exact .inr ⟨f, List.mem_cons_of_mem _ hf, hc⟩

theorem mem_lineOf_of_mem {fields : List String} {field : String} (hfield : field ∈ fields)
    {c : Char} (hc : c ∈ field.toList) : c ∈ lineOf fields := by
  induction fields with
  | nil => cases hfield
  | cons first fields ih =>
    cases fields with
    | nil =>
      obtain rfl : field = first := by simpa using hfield
      rw [lineOf, List.map_singleton, List.intercalate_singleton]
      exact hc
    | cons next fields =>
      rw [lineOf, List.map_cons, List.map_cons, List.intercalate_cons_cons, List.append_assoc,
        List.singleton_append, List.mem_append, List.mem_cons]
      rcases List.mem_cons.mp hfield with rfl | hfield
      · exact .inl hc
      · exact .inr (.inr (ih hfield))

/-- A tab is not a line break. -/
theorem exists_lineBreak_iff {fields : List String} :
    (∃ c ∈ lineOf fields, isLineBreak c = true) ↔ HasLineBreak fields := by
  constructor
  · rintro ⟨c, hc, hbreak⟩
    rcases mem_lineOf hc with rfl | ⟨field, hfield, hmem⟩
    · exact absurd hbreak (by decide)
    · exact ⟨field, hfield, c, hmem, hbreak⟩
  · rintro ⟨field, hfield, c, hc, hbreak⟩
    exact ⟨c, mem_lineOf_of_mem hfield hc, hbreak⟩

section Record

variable {width : ℕ} {fields : List String} (hrecord : Record width fields)
include hrecord

theorem Record.splitOn_lineOf (hwidth : 0 < width) :
    (lineOf fields).splitOn '\t' = fields.map String.toList := by
  apply List.splitOn_intercalate
  · intro l hl hmem
    obtain ⟨field, hfield, rfl⟩ := List.mem_map.mp hl
    exact (hrecord.chars field hfield '\t' hmem).2.2 rfl
  · -- a record has a field, so the line is not that of no fields
    have hlength := hrecord.length
    intro hnil
    rw [List.map_eq_nil_iff] at hnil
    rw [hnil] at hlength
    simp at hlength
    omega

theorem Record.fieldsOfLine_lineOf (hwidth : 0 < width) :
    fieldsOfLine (lineOf fields) = fields := by
  rw [fieldsOfLine, hrecord.splitOn_lineOf hwidth, List.map_map]
  simp [Function.comp_def]

/-- No character of the line of a record ends a line of a file. -/
theorem Record.not_end {c : Char} (hc : c ∈ lineOf fields) : c ≠ '\n' ∧ c ≠ '\r' := by
  rcases mem_lineOf hc with rfl | ⟨field, hfield, hmem⟩
  · decide
  · exact ⟨(hrecord.chars field hfield c hmem).1, (hrecord.chars field hfield c hmem).2.1⟩

/-- The end of a line is cut off, and nothing else. -/
theorem Record.rstrip_lineOf :
    rstrip (fun c => c == '\r' || c == '\n') (lineOf fields ++ ['\n']) = lineOf fields := by
  rw [rstrip, List.reverse_append, List.reverse_singleton, List.singleton_append,
    List.dropWhile_cons, if_pos (by decide)]
  -- the last character of the record is no line end
  have hkeep : ((lineOf fields).reverse.dropWhile fun c => c == '\r' || c == '\n')
      = (lineOf fields).reverse := by
    cases hline : (lineOf fields).reverse with
    | nil => rfl
    | cons c rest =>
      have hmem : c ∈ lineOf fields := by
        rw [← List.mem_reverse, hline]
        exact List.mem_cons_self
      obtain ⟨hn, hr⟩ := hrecord.not_end hmem
      rw [List.dropWhile_cons, if_neg (by simp [hn, hr])]
  rw [hkeep, List.reverse_reverse]

/-- The line with its end, read from a text file. -/
theorem Record.fieldsOfText_lineOf (hwidth : 0 < width) :
    fieldsOfText (String.ofList (lineOf fields ++ ['\n'])) = fields := by
  rw [fieldsOfText, String.toList_ofList, hrecord.rstrip_lineOf, hrecord.splitOn_lineOf hwidth,
    List.map_map]
  simp [Function.comp_def]

/-- The line with its end, read from a binary file. -/
theorem Record.fieldsOfBytes_lineOf (hwidth : 0 < width) :
    fieldsOfBytes (utf8 (lineOf fields ++ ['\n'])) = fields.map fun field => utf8 field.toList := by
  -- the bytes of line ends and tabs are those of these characters only
  have hend : rstrip (fun b => b == 13 || b == 10) (utf8 (lineOf fields ++ ['\n']))
      = utf8 (rstrip (fun c => c == '\r' || c == '\n') (lineOf fields ++ ['\n'])) := by
    apply utf8_dropEnd
    · intro c b hb
      have hr := beq_byte (show '\r'.toNat < 128 by decide) hb
      have hn := beq_byte (show '\n'.toNat < 128 by decide) hb
      exact congrArg₂ (· || ·) hr hn
    · intro c hc
      simp only [Bool.or_eq_true, beq_iff_eq] at hc
      rcases hc with rfl | rfl <;> rfl
  have htabs : (utf8 (lineOf fields)).splitOn 9 = ((lineOf fields).splitOn '\t').map utf8 := by
    apply utf8_splitOnP
    · intro c b hb
      exact beq_byte (show '\t'.toNat < 128 by decide) hb
    · intro c hc
      rw [beq_iff_eq] at hc
      rw [hc]
      rfl
  rw [fieldsOfBytes, hend, hrecord.rstrip_lineOf, htabs, hrecord.splitOn_lineOf hwidth,
    List.map_map]
  rfl

theorem Record.wellFormed (hwidth : width = 5) : WellFormed (utf8 (lineOf fields ++ ['\n'])) where
  fields := by
    rw [hrecord.fieldsOfBytes_lineOf (by omega), List.length_map, hrecord.length, hwidth]
  text := ⟨_, decode_utf8 _⟩

theorem Record.rowOf_lineOf (hwidth : 0 < width) :
    rowOf (utf8 (lineOf fields ++ ['\n'])) = fields := by
  rw [rowOf, decode_utf8]
  exact hrecord.fieldsOfText_lineOf hwidth

end Record

/-! ### What the adapter reads -/

section Files

variable {width : ℕ} {records : List (List String)} (hrecords : ∀ r ∈ records, Record width r)
include hrecords

/-- Universal newlines leave the file as it is. -/
theorem unixLines_textOf : unixLines (textOf records) = textOf records := by
  -- without a carriage return there is nothing to translate
  have hplain : ∀ cs : List Char, '\r' ∉ cs → unixLines cs = cs := by
    intro cs
    fun_induction unixLines cs with
    | case1 => simp
    | case2 cs ih => simp
    | case3 cs hcs ih => simp
    | case4 c cs hc hc' ih =>
      intro h
      rw [ih fun hmem => h (List.mem_cons_of_mem c hmem)]
  apply hplain
  intro hmem
  obtain ⟨line, hline, hmem⟩ := List.mem_flatMap.mp hmem
  obtain ⟨record, hrecord, rfl⟩ := List.mem_map.mp hline
  rcases List.mem_append.mp hmem with h | h
  · exact ((hrecords record hrecord).not_end h).2 rfl
  · simp at h

theorem readText_fileOf : readText (fileOf records) = .ok (textOf records) := by
  have hdecode : decode (fileOf records) = .ok (String.ofList (textOf records)) := decode_utf8 _
  rw [readText, hdecode]
  show Except.ok (unixLines (String.ofList (textOf records)).toList) = _
  rw [String.toList_ofList, unixLines_textOf hrecords]

theorem splitlines_textOf :
    splitlines (textOf records)
      = (records.map lineOf).flatMap fun line => line.splitOnP isLineBreak := by
  rw [splitlines, unixLines_textOf hrecords, textOf, splitOnP_flatMap (by decide)]
  simp

/-- Lines without line breaks are numbered and cut to the records. -/
theorem mapM_recordOf (hwidth : 0 < width) (malformed : ℕ → String) (start : ℕ) :
    ((records.map lineOf).zipIdx start).mapM (recordOf width malformed) = .ok records := by
  induction records generalizing start with
  | nil => rfl
  | cons record records ih =>
    have hrecord := hrecords record List.mem_cons_self
    have hfirst : recordOf width malformed (lineOf record, start) = .ok record := by
      simp only [recordOf, hrecord.fieldsOfLine_lineOf hwidth, hrecord.length, ne_eq, not_true,
        if_false]
    rw [List.map_cons, List.zipIdx_cons, List.mapM_cons, hfirst,
      ih (fun r hr => hrecords r (List.mem_cons_of_mem record hr))]
    rfl

/-- Where no field has a line break, the adapter reads the records. -/
theorem adapterRecords_fileOf (hwidth : 0 < width) (malformed : ℕ → String)
    (hbreaks : ∀ r ∈ records, ¬ HasLineBreak r) :
    adapterRecords width malformed (fileOf records) = .ok records := by
  -- `splitlines` does not cut the line of a record
  have hone : ∀ line ∈ records.map lineOf, line.splitOnP isLineBreak = [line] := by
    intro line hline
    obtain ⟨record, hrecord, rfl⟩ := List.mem_map.mp hline
    apply List.splitOnP_eq_singleton
    intro c hc
    by_contra hbreak
    exact hbreaks record hrecord (exists_lineBreak_iff.mp ⟨c, hc, by simpa using hbreak⟩)
  have hlines : splitlines (textOf records) = records.map lineOf := by
    rw [splitlines_textOf hrecords, List.flatMap_congr hone, List.flatMap_singleton']
  rw [adapterRecords, readText_fileOf hrecords]
  show ((splitlines (textOf records)).zipIdx 1).mapM _ = _
  rw [hlines, mapM_recordOf hrecords hwidth]

/-- Where a field has a line break, the adapter raises. -/
theorem adapterRecords_fileOf_ne_ok (hwidth : 2 ≤ width) (malformed : ℕ → String)
    (hbreak : ∃ r ∈ records, HasLineBreak r) (read : List (List String)) :
    adapterRecords width malformed (fileOf records) ≠ .ok read := by
  obtain ⟨record, hmem, hbreak⟩ := hbreak
  have hrecord := hrecords record hmem
  have hfields : ((lineOf record).splitOn '\t').length = width := by
    rw [hrecord.splitOn_lineOf (by omega), List.length_map, hrecord.length]
  -- a piece of the line of the record has fewer fields
  obtain ⟨piece, hpiece, hfewer⟩ := exists_fewer_fields (show isLineBreak '\t' = false by decide)
    (exists_lineBreak_iff.mpr hbreak) hwidth hfields
  have hline : piece ∈ splitlines (textOf records) := by
    rw [splitlines_textOf hrecords]
    exact List.mem_flatMap.mpr ⟨_, List.mem_map_of_mem hmem, hpiece⟩
  obtain ⟨index, hindex, rfl⟩ := List.getElem_of_mem hline
  intro hread
  rw [adapterRecords, readText_fileOf hrecords] at hread
  have hall := mapM_eq_ok_iff.mp (show ((splitlines (textOf records)).zipIdx 1).mapM
    (recordOf width malformed) = .ok read from hread)
  -- the loop raises at the piece, with the number of its line
  have hraised : recordOf width malformed ((splitlines (textOf records))[index], 1 + index)
      = .error (.valueError (malformed (1 + index))) := by
    simp only [recordOf, fieldsOfLine, List.length_map, ne_eq, hfewer, not_false_eq_true, if_true]
  have hmapped : (.error (.valueError (malformed (1 + index))) : Except Raised (List String))
      ∈ read.map .ok := by
    rw [← hall, ← hraised]
    apply List.mem_map_of_mem
    rw [Nat.add_comm, List.mk_mem_zipIdx_iff_le_and_getElem?_sub]
    simp [hindex]
  obtain ⟨fields, -, hok⟩ := List.mem_map.mp hmapped
  cases hok

/-! ### What the compact dataset reads -/

/-- A text file of records gives the records. -/
theorem largeNewsRecords_fileOf (hwidth : width = 8) :
    largeNewsRecords (fileOf records) = .ok records := by
  -- iterating over the file ends lines at `\n` only
  have hlines : textLines (String.ofList (textOf records))
      = records.map fun record => String.ofList (lineOf record ++ ['\n']) := by
    rw [textLines, String.toList_ofList, unixLines_textOf hrecords, textOf,
      linesOf_flatMap (by decide), List.map_map, List.map_map]
    · rfl
    · intro line hline c hc
      obtain ⟨record, hrecord, rfl⟩ := List.mem_map.mp hline
      simpa using ((hrecords record hrecord).not_end hc).1
  have hdecode : decode (fileOf records) = .ok (String.ofList (textOf records)) := decode_utf8 _
  rw [largeNewsRecords, hdecode]
  show (textLines (String.ofList (textOf records))).mapM newsFields = .ok records
  rw [hlines, mapM_eq_ok_iff, List.map_map]
  apply List.map_congr_left
  intro record hrecord
  have hfields := (hrecords record hrecord).fieldsOfText_lineOf (by omega)
  show newsFields _ = .ok record
  simp only [newsFields, hfields, (hrecords record hrecord).length, hwidth, ne_eq, not_true,
    if_false]

/-- The lines of a binary file of records. -/
theorem byteLines_fileOf :
    byteLines (fileOf records) = records.map fun record => utf8 (lineOf record ++ ['\n']) := by
  -- the bytes of the file, line by line
  have hfile : fileOf records
      = ((records.map lineOf).map utf8).flatMap fun line => line ++ [10] := by
    rw [fileOf, textOf, utf8, List.flatMap_assoc, List.flatMap_map, List.flatMap_map,
      List.flatMap_map]
    apply List.flatMap_congr
    intro record _
    exact Lib.utf8_append (lineOf record) ['\n']
  rw [byteLines, hfile, linesOf_flatMap (by decide), List.map_map, List.map_map]
  · apply List.map_congr_left
    intro record _
    exact (Lib.utf8_append (lineOf record) ['\n']).symm
  · intro line hline b hb
    obtain ⟨chars, hchars, rfl⟩ := List.mem_map.mp hline
    obtain ⟨record, hrecord, rfl⟩ := List.mem_map.mp hchars
    obtain ⟨c, hc, hb⟩ := List.mem_flatMap.mp hb
    have hbyte := beq_byte (show '\n'.toNat < 128 by decide) hb
    have hne : (c == '\n') = false := by simpa using ((hrecords record hrecord).not_end hc).1
    exact hbyte.trans hne

/-- A sample of the size of the file has its records. -/
theorem sampleBehaviors_fileOf (hwidth : width = 5) (hne : records ≠ []) (rt : Runtime)
    (seed : Int) : ∃ rows audit,
      sampleBehaviors rt (byteLines (fileOf records)) records.length seed none = .ok (rows, audit)
        ∧ rows.Perm records := by
  have hpos : 0 < records.length := List.length_pos_iff.mpr hne
  have hwell : ∀ line ∈ byteLines (fileOf records), WellFormed line := by
    rw [byteLines_fileOf hrecords]
    intro line hline
    obtain ⟨record, hrecord, rfl⟩ := List.mem_map.mp hline
    exact (hrecords record hrecord).wellFormed hwidth
  have hlength : (ranking rt seed (fun _ => false) (byteLines (fileOf records))).length
      = records.length := by
    rw [length_ranking, byteLines_fileOf hrecords]
    simp
  have hrows : (byteLines (fileOf records)).map rowOf = records := by
    rw [byteLines_fileOf hrecords, List.map_map]
    conv_rhs => rw [← List.map_id records]
    apply List.map_congr_left
    intro record hrecord
    exact (hrecords record hrecord).rowOf_lineOf (by omega)
  -- nothing is excluded, so the ranking is the file in another order
  have hperm : (ranking rt seed (fun _ => false) (byteLines (fileOf records))).Perm
      (byteLines (fileOf records)) := by
    rw [ranking]
    refine (Lib.stableSort_perm _ _).trans ?_
    simp
  rw [sampleBehaviors_eq hwell (fun _ _ => rfl), if_neg (by omega), if_neg (by omega)]
  refine ⟨_, _, rfl, ?_⟩
  rw [List.take_of_length_le (by omega)]
  exact (hperm.map rowOf).trans (List.Perm.of_eq hrows)

end Files

/-! ### The two readers -/

/-- The two readers read the same records of two files exactly if there is a behavior and no field
    has a character at which `str.splitlines` ends a line. -/
theorem readers_agree_iff (rt : Runtime) (seed : Int) {news behaviors : List (List String)}
    (hnews : ∀ r ∈ news, Record 8 r) (hbehaviors : ∀ r ∈ behaviors, Record 5 r) :
    (newsRecords (fileOf news) = largeNewsRecords (fileOf news)
      ∧ ∃ rows audit read,
        sampleBehaviors rt (byteLines (fileOf behaviors)) behaviors.length seed none
            = .ok (rows, audit)
          ∧ behaviorRecords (fileOf behaviors) = .ok read ∧ rows.Perm read)
      ↔ behaviors ≠ [] ∧ ∀ r ∈ news ++ behaviors, ¬ HasLineBreak r := by
  rw [largeNewsRecords_fileOf hnews rfl]
  constructor
  · rintro ⟨hread, rows, audit, read, hsample, hbehavior, -⟩
    refine ⟨?_, ?_⟩
    · -- a sample of an empty file would have the limit zero
      rintro rfl
      have hzero := @sampleBehaviors_eq rt seed none (fun _ => false) (byteLines (fileOf []))
        (by simp [byteLines, fileOf, textOf, linesOf]) (fun _ _ => rfl) 0
      have hlimit : ((([] : List (List String)).length : ℕ) : Int) = 0 := rfl
      rw [hlimit, hzero, if_pos (by decide)] at hsample
      cases hsample
    · intro record hmem hbreak
      rcases List.mem_append.mp hmem with hmem | hmem
      · exact adapterRecords_fileOf_ne_ok hnews (by decide) _ ⟨record, hmem, hbreak⟩ _ hread
      · exact adapterRecords_fileOf_ne_ok hbehaviors (by decide) _ ⟨record, hmem, hbreak⟩ _
          hbehavior
  · rintro ⟨hne, hbreaks⟩
    have hplain : ∀ r ∈ news, ¬ HasLineBreak r :=
      fun r hr => hbreaks r (List.mem_append_left _ hr)
    have hplain' : ∀ r ∈ behaviors, ¬ HasLineBreak r :=
      fun r hr => hbreaks r (List.mem_append_right _ hr)
    obtain ⟨rows, audit, hsample, hperm⟩ := sampleBehaviors_fileOf hbehaviors rfl hne rt seed
    exact ⟨adapterRecords_fileOf hnews (by decide) _ hplain, rows, audit, behaviors, hsample,
      adapterRecords_fileOf hbehaviors (by decide) _ hplain', hperm⟩

/-- A record of a behaviors file. -/
def plainBehavior : List String := ["1", "U1", "11/15/2019 8:55:22 AM", "N1", "N2-0 N3-1"]

/-- A record of a news file, with a title. -/
def newsWithTitle (title : String) : List String :=
  ["N1", "news", "newsworld", title, "", "https://example.invalid", "[]", "[]"]

theorem record_plainBehavior : Record 5 plainBehavior := by
  refine ⟨rfl, ?_⟩
  simp [plainBehavior]

theorem record_newsWithTitle {title : String}
    (htitle : ∀ c ∈ title.toList, c ≠ '\n' ∧ c ≠ '\r' ∧ c ≠ '\t') :
    Record 8 (newsWithTitle title) := by
  refine ⟨rfl, ?_⟩
  simpa [newsWithTitle] using htitle

/-- Two files of one record each. -/
theorem readers_agree_plain :
    (newsRecords (fileOf [newsWithTitle "A title"])
        = largeNewsRecords (fileOf [newsWithTitle "A title"])
      ∧ ∃ rows audit read,
        sampleBehaviors plainRuntime (byteLines (fileOf [plainBehavior])) 1 7 none
            = .ok (rows, audit)
          ∧ behaviorRecords (fileOf [plainBehavior]) = .ok read ∧ rows.Perm read) := by
  have hnews : ∀ r ∈ [newsWithTitle "A title"], Record 8 r := by
    simpa using record_newsWithTitle
      (show ∀ c ∈ "A title".toList, c ≠ '\n' ∧ c ≠ '\r' ∧ c ≠ '\t' by simp)
  have hbehaviors : ∀ r ∈ [plainBehavior], Record 5 r := by
    simpa using record_plainBehavior
  refine (readers_agree_iff plainRuntime 7 hnews hbehaviors).mpr ⟨by simp, ?_⟩
  simp [HasLineBreak, newsWithTitle, plainBehavior, isLineBreak, lineBreaks]

/-- A title with a line separator: the adapter raises. -/
theorem readers_differ : ¬ ∀ (rt : Runtime) (seed : Int) (news behaviors : List (List String)),
    (∀ r ∈ news, Record 8 r) → (∀ r ∈ behaviors, Record 5 r) → behaviors ≠ [] →
    newsRecords (fileOf news) = largeNewsRecords (fileOf news)
      ∧ ∃ rows audit read,
        sampleBehaviors rt (byteLines (fileOf behaviors)) behaviors.length seed none
            = .ok (rows, audit)
          ∧ behaviorRecords (fileOf behaviors) = .ok read ∧ rows.Perm read := by
  intro h
  have hnews : ∀ r ∈ [newsWithTitle "A\u2028title"], Record 8 r := by
    simpa using record_newsWithTitle
      (show ∀ c ∈ "A\u2028title".toList, c ≠ '\n' ∧ c ≠ '\r' ∧ c ≠ '\t' by simp)
  have hbehaviors : ∀ r ∈ [plainBehavior], Record 5 r := by
    simpa using record_plainBehavior
  have hread := (h plainRuntime 7 _ _ hnews hbehaviors (by simp)).1
  rw [largeNewsRecords_fileOf hnews rfl] at hread
  refine adapterRecords_fileOf_ne_ok hnews (by decide) _ ⟨_, List.mem_singleton_self _, ?_⟩ _ hread
  exact ⟨"A\u2028title", by simp [newsWithTitle], Char.ofNat 0x2028, by decide, by decide⟩

end Oecophylla.Mind
