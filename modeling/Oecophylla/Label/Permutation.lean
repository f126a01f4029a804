import Mathlib
import Oecophylla.Label.Python
import Oecophylla.Label.Readable
import Oecophylla.Python.Isoformat

namespace Oecophylla.Label.Python

open Oecophylla.Python (Value Dict Datetime)
open Lib (compareBy stableSort)

/-!
# The resolver reads a set of events

A canonical payload is the text of an event.  Events with one id and one payload need not be equal:
a timestamp may be a `datetime` in one of them and its text in the other, and fields may stand in
any order.  They are read alike, so that it does not matter which of them is kept.  The one
exception is an offset of less than a second, which `fromisoformat` takes for UTC: a `datetime` with
such an offset is another instant than its text.

* `dumps_readable` — the payload can be read back;
* `Reading`, `reading` — what the resolver takes from an event;
* `reading_congr` — the payload and the id determine it;
* `deriveLabel_eq_ok_iff` — the result is a function of the readings of the kept events;
* `deriveLabel_perm`, `deriveLabel_append_copies`, `deriveLabel_raises_iff` — the order of the
  events and the copies among them do not matter;
* `deriveLabel_depends_on_order` — copies of which one has an offset of half a second.
-/

/-! ### The texts of numbers -/

/-- The characters of a number. -/
def numeralChar (c : Char) : Bool := c.isDigit || c == '-' || c == '.' || c == 'e' || c == '+'

/-- A text of such characters. -/
def Numeral (s : String) : Prop := s.toList.all numeralChar = true

theorem Numeral.append {s t : String} (hs : Numeral s) (ht : Numeral t) : Numeral (s ++ t) := by
  unfold Numeral at *
  rw [String.toList_append, List.all_append, hs, ht]
  rfl

theorem Numeral.sublist {s : String} (hs : Numeral s) {l : List Char} (h : l.Sublist s.toList) :
    Numeral (String.ofList l) := by
  unfold Numeral at *
  rw [String.toList_ofList, List.all_eq_true]
  exact fun c hc => List.all_eq_true.mp hs c (h.subset hc)

theorem numeral_toString (n : Nat) : Numeral (toString n) := by
  unfold Numeral
  rw [Nat.toString_eq_repr, Nat.toList_repr, List.all_eq_true]
  intro c hc
  simp [numeralChar, Nat.isDigit_of_mem_toDigits (by decide) (by decide) hc]

theorem numeral_zeros (n : Nat) : Numeral (zeros n) := by
  unfold Numeral zeros
  rw [String.toList_ofList, List.all_replicate]
  split <;> rfl

theorem numeral_int (z : Int) : Numeral (toString z) := by
  cases z with
  | ofNat n => exact numeral_toString n
  | negSucc n =>
    have hminus : Numeral "-" := by
      unfold Numeral
      decide
    exact hminus.append (numeral_toString (n + 1))

theorem numeral_floatRepr (d : Decimal) : Numeral (Oecophylla.Python.floatRepr d) := by
  have hdigits : Numeral d.digitText := numeral_toString d.digits
  have hsign : Numeral d.signText := by
    unfold Decimal.signText
    split <;> (unfold Numeral; decide)
  have hliteral : Numeral "0.0" ∧ Numeral "0." ∧ Numeral ".0" ∧ Numeral "." ∧ Numeral ""
      ∧ Numeral "e" ∧ Numeral "-" ∧ Numeral "+" := by
    unfold Numeral
    decide
  obtain ⟨h00, h0, hp0, hpoint, hempty, he, hminus, hplus⟩ := hliteral
  have hexponent : ∀ e : Int,
      Numeral ((if e < 0 then "-" else "+") ++ Oecophylla.Python.pad 2 e.natAbs) := by
    intro e
    apply Numeral.append
    · split
      · exact hminus
      · exact hplus
    · exact (numeral_zeros _).append (numeral_toString _)
  unfold Oecophylla.Python.floatRepr Decimal.render
  apply hsign.append
  split_ifs
  · exact h00
  · exact (h0.append (numeral_zeros _)).append hdigits
  · exact (hdigits.append (numeral_zeros _)).append hp0
  · exact ((hdigits.sublist (List.take_sublist _ _)).append hpoint).append
      (hdigits.sublist (List.drop_sublist _ _))
  · exact (((hdigits.sublist (List.take_sublist _ _)).append hempty).append he).append (hexponent _)
  · exact (((hdigits.sublist (List.take_sublist _ _)).append
      (hpoint.append (hdigits.sublist (List.drop_sublist _ _)))).append he).append (hexponent _)

theorem Numeral.plain {s : String} (hs : Numeral s) : Plain s := by
  unfold Numeral Plain at *
  rw [List.all_eq_true] at *
  intro c hc
  have hnumeral := hs c hc
  have hnot : ∀ d : Char, numeralChar d = false → c ≠ d := by
    rintro d hd rfl
    rw [hd] at hnumeral
    contradiction
  simp [plainChar, hnot '\x22' (by decide), hnot '[' (by decide), hnot '\x7b' (by decide),
    hnot ',' (by decide), hnot ':' (by decide), hnot ']' (by decide), hnot '\x7d' (by decide)]

theorem dumps_readable : dumps.Readable where
  int z := (numeral_int z).plain
  float d := (numeral_floatRepr d).plain
  order _ := Lib.stableSort_perm _ _

/-! ### The canonical text of a value -/

/-- The text of a value in the payload. -/
def canonicalText (v : Value) : String := dumps.write (canonicalJsonValue v)

/-- What stands between the quotes of a value that is written as a string literal. -/
def quoted : Value → Option String
  | .str s => some s
  | .datetime t => some t.isoformat
  | .uuid n => some (Oecophylla.Python.uuidText n)
  | _ => none

theorem canonicalText_of_quoted {v : Value} {s : String} (h : quoted v = some s) :
    canonicalText v = quote s := by
  cases v <;> simp only [quoted, Option.some.injEq, reduceCtorEq] at h <;> (subst h; rfl)

/-- The first character of a document; `0` stands for those of all numbers. -/
def lead : Json → Char
  | .null => 'n'
  | .bool true => 't'
  | .bool false => 'f'
  | .int _ => '0'
  | .float _ => '0'
  | .str _ => '\x22'
  | .arr _ => '['
  | .obj _ => '\x7b'

theorem write_lead (v : Json) : lead v = '0' ∧ Numeral (dumps.write v)
    ∨ numeralChar (lead v) = false ∧ (dumps.write v).toList.head? = some (lead v) := by
  cases v with
  | null => exact .inr ⟨rfl, rfl⟩
  | bool b => cases b <;> exact .inr ⟨rfl, rfl⟩
  | int z => exact .inl ⟨rfl, numeral_int z⟩
  | float d => exact .inl ⟨rfl, numeral_floatRepr d⟩
  | str s =>
    refine .inr ⟨rfl, ?_⟩
    show (quote s).toList.head? = _
    unfold quote
    rw [String.toList_append, String.toList_append]
    rfl
  | arr items =>
    refine .inr ⟨rfl, ?_⟩
    rw [Writer.write, String.toList_append, String.toList_append]
    rfl
  | obj fields =>
    refine .inr ⟨rfl, ?_⟩
    rw [Writer.write, String.toList_append, String.toList_append]
    rfl

/-- The text of a document tells its first character. -/
theorem lead_eq_of_write_eq {v w : Json} (h : dumps.write v = dumps.write w) : lead v = lead w := by
  have hclash : ∀ {s : String} {c : Char}, Numeral s → s.toList.head? = some c →
      numeralChar c = true := by
    intro s c hs hc
    exact List.all_eq_true.mp hs c (List.mem_of_head? hc)
  rcases write_lead v with ⟨hv, hnv⟩ | ⟨hv, hnv⟩ <;> rcases write_lead w with ⟨hw, hnw⟩ | ⟨hw, hnw⟩
  · rw [hv, hw]
  · rw [h] at hnv
    rw [hclash hnv hnw] at hw
    contradiction
  · rw [h] at hnv
    rw [hclash hnw hnv] at hv
    contradiction
  · rw [h, hnw] at hnv
    exact (Option.some.inj hnv).symm

/-- The text of a value tells whether it is a string literal, and which. -/
theorem quoted_eq_of_text_eq {v w : Value} (h : canonicalText v = canonicalText w) :
    quoted v = quoted w := by
  have hlead := lead_eq_of_write_eq h
  have hquoted : ∀ v : Value, (quoted v).isSome ↔ lead (canonicalJsonValue v) = '\x22' := by
    intro v
    cases v with
    | bool b => cases b <;> simp [quoted, canonicalJsonValue, lead]
    | _ => simp [quoted, canonicalJsonValue, lead]
  cases hv : quoted v with
  | none =>
    have hw : ¬ (quoted w).isSome := by
      rw [hquoted, ← hlead, ← hquoted, hv]
      simp
    exact (Option.not_isSome_iff_eq_none.mp hw).symm
  | some s =>
    have hw : (quoted w).isSome := by
      rw [hquoted, ← hlead, ← hquoted, hv]
      rfl
    obtain ⟨t, ht⟩ := Option.isSome_iff_exists.mp hw
    rw [canonicalText_of_quoted hv, canonicalText_of_quoted ht] at h
    rw [ht, quote_injective h]

/-- `None` is the only value that is written `null`. -/
theorem eq_none_of_text_eq {v : Value} (h : canonicalText v = canonicalText .none) : v = .none := by
  have hlead := lead_eq_of_write_eq h
  cases v with
  | none => rfl
  | bool b => cases b <;> exact absurd hlead (by simp [canonicalJsonValue, lead])
  | _ => exact absurd hlead (by simp [canonicalJsonValue, lead])

/-- Only an object is written like one. -/
theorem eq_dict_of_text_eq {v : Value} {d : Dict} (h : canonicalText v = canonicalText (.dict d)) :
    ∃ d', v = .dict d' := by
  have hlead := lead_eq_of_write_eq h
  cases v with
  | dict d' => exact ⟨d', rfl⟩
  | bool b => cases b <;> exact absurd hlead (by simp [canonicalJsonValue, lead])
  | _ => exact absurd hlead (by simp [canonicalJsonValue, lead])

/-! ### Timestamps -/

/-- A text without `Z` is parsed as it is. -/
theorem replaceZ_of_no_Z {s : String} (h : ∀ c ∈ s.toList, c ≠ 'Z') : replaceZ s = s := by
  have hflat : ∀ l : List Char, (∀ c ∈ l, c ≠ 'Z') →
      l.flatMap (fun c => if c = 'Z' then "+00:00".toList else [c]) = l := by
    intro l hl
    induction l with
    | nil => rfl
    | cons c l ih =>
      rw [List.flatMap_cons, if_neg (hl c List.mem_cons_self),
        ih fun d hd => hl d (List.mem_cons_of_mem _ hd)]
      rfl
  unfold replaceZ
  rw [hflat _ h, String.ofList_toList]

/-- The instant of a text. -/
def instantOfText (s : String) : Option Int :=
  (Oecophylla.Python.fromisoformat (replaceZ s)).bind Datetime.instant

/-- Every `datetime` in a timestamp is one, and its offset is not lost in its text. -/
def ProperTimestamp : Value → Prop
  | .datetime t => t.Proper ∧ t.OffsetKept
  | _ => True

theorem instantOfText_isoformat {t : Datetime} (h : t.Proper) (hkept : t.OffsetKept) :
    instantOfText t.isoformat = t.instant := by
  have hnoZ : ∀ c ∈ t.isoformat.toList, c ≠ 'Z' := by
    rintro c hc rfl
    exact absurd (List.all_eq_true.mp (Oecophylla.Python.all_isoChar h) _ hc) (by decide)
  unfold instantOfText
  rw [replaceZ_of_no_Z hnoZ, Oecophylla.Python.fromisoformat_isoformat h hkept,
    Option.bind_some]

/-- The text of a UUID is no timestamp. -/
theorem instantOfText_uuidText (n : Nat) : instantOfText (Oecophylla.Python.uuidText n) = none := by
  have hdigit : ∀ d < 16, Nat.digitChar d ≠ 'Z' := by decide
  have hnoZ : ∀ c ∈ (Oecophylla.Python.uuidText n).toList, c ≠ 'Z' := by
    intro c hc
    rcases Oecophylla.Python.mem_uuidText hc with rfl | ⟨d, hd, rfl⟩
    · decide
    · exact hdigit d hd
  unfold instantOfText
  rw [replaceZ_of_no_Z hnoZ, Oecophylla.Python.fromisoformat_uuidText, Option.bind_none]

/-- A timestamp that is a string literal in the payload: its text says when it was, unless it is
    an id, which is read as the first instant. -/
theorem timestamp_of_quoted {v : Value} {s : String} (h : quoted v = some s)
    (hproper : ProperTimestamp v) :
    timestamp v = instantOfText s ∨ instantOfText s = none ∧ timestamp v = some 0 := by
  cases v <;> simp only [quoted, Option.some.injEq, reduceCtorEq] at h <;> subst h
  case str s => exact .inl rfl
  case datetime t => exact .inl (instantOfText_isoformat hproper.1 hproper.2).symm
  case uuid n => exact .inr ⟨instantOfText_uuidText n, rfl⟩

/-- **Timestamps with one text are one instant**, when both can be read. -/
theorem timestamp_eq_of_text_eq {v w : Value} (h : canonicalText v = canonicalText w)
    (hv : ProperTimestamp v) (hw : ProperTimestamp w) (hvs : (timestamp v).isSome)
    (hws : (timestamp w).isSome) : timestamp v = timestamp w := by
  have hquoted := quoted_eq_of_text_eq h
  cases hs : quoted v with
  | none =>
    have hzero : ∀ v : Value, quoted v = none → timestamp v = some 0 := by
      intro v hnone
      cases v <;> first | rfl | simp [quoted] at hnone
    rw [hzero v hs, hzero w (hquoted ▸ hs)]
  | some s =>
    rcases timestamp_of_quoted hs hv with h₁ | ⟨h₁, h₁'⟩ <;>
      rcases timestamp_of_quoted (hquoted ▸ hs) hw with h₂ | ⟨h₂, h₂'⟩
    · rw [h₁, h₂]
    · rw [h₁, h₂] at hvs
      simp at hvs
    · rw [h₂, h₁] at hws
      simp at hws
    · rw [h₁', h₂']

/-! ### Event types -/

/-- The event type, when it is one of the contract; all others are read alike. -/
def effectiveType (eventType : String) : String :=
  if eventType ∈ eventTypes then eventType else ""

theorem effectiveType_of_mem_numerals {s : String} (h : Numeral s) : effectiveType s = "" := by
  have hwords : ∀ word ∈ eventTypes, word.toList.all numeralChar = false := by decide
  refine if_neg fun hmem => ?_
  have hword := hwords s hmem
  unfold Numeral at h
  rw [h] at hword
  contradiction

/-- No event type has a bracket or a hyphen. -/
theorem effectiveType_of_mem {s : String} {c : Char} (hc : c = '[' ∨ c = '\x7b' ∨ c = '-')
    (h : c ∈ s.toList) : effectiveType s = "" := by
  have hwords : ∀ word ∈ eventTypes,
      (word.toList.all fun c => c != '[' && c != '\x7b' && c != '-') = true := by decide
  refine if_neg fun hmem => ?_
  have hword := List.all_eq_true.mp (hwords s hmem) c h
  rcases hc with rfl | rfl | rfl <;> exact absurd hword (by decide)

/-- What an event type is for the resolver is told by its text. -/
theorem effectiveType_str (v : Value) :
    effectiveType (Oecophylla.Python.str v) = ((quoted v).map effectiveType).getD "" := by
  cases v with
  | none => decide
  | bool b => cases b <;> decide
  | int z => exact effectiveType_of_mem_numerals (numeral_int z)
  | float d => exact effectiveType_of_mem_numerals (numeral_floatRepr d)
  | list items =>
    apply effectiveType_of_mem (.inl rfl)
    show '[' ∈ ("[" ++ Oecophylla.Python.reprItems items ++ "]").toList
    simp
  | dict fields =>
    apply effectiveType_of_mem (.inr (.inl rfl))
    show '\x7b' ∈ ("\x7b" ++ Oecophylla.Python.reprFields fields ++ "\x7d").toList
    simp
  | str s =>
    have hstr : Oecophylla.Python.str (.str s) = s := rfl
    rw [hstr, quoted, Option.map_some, Option.getD_some]
  | datetime t =>
    have hstr : Oecophylla.Python.str (.datetime t) = t.format " " := rfl
    have hdash := Oecophylla.Python.dash_mem_format t
    rw [hstr, quoted, Option.map_some, Option.getD_some, Datetime.isoformat,
      effectiveType_of_mem (.inr (.inr rfl)) (hdash "T"),
      effectiveType_of_mem (.inr (.inr rfl)) (hdash " ")]
  | uuid n =>
    have hstr : Oecophylla.Python.str (.uuid n) = Oecophylla.Python.uuidText n := rfl
    rw [hstr, quoted, Option.map_some, Option.getD_some]

/-! ### What the payload determines -/

theorem get_canonicalFields (d : Dict) (name : String) :
    (canonicalFields d).get name = (d.get name).map canonicalJsonValue := by
  induction d with
  | nil => rfl
  | cons f d ih =>
    obtain ⟨k, v⟩ := f
    rw [canonicalFields, Object.get_cons, ih]
    by_cases hname : name = k
    · simp [Dict.get, hname]
    · have hbeq : (name == k) = false := by simpa using hname
      simp [Dict.get, List.lookup_cons, hname, hbeq]

/-- Objects with one text have the same texts under every name. -/
theorem get_text_eq {d d' : Dict} (h : canonicalText (.dict d) = canonicalText (.dict d'))
    (name : String) : (d.get name).map canonicalText = (d'.get name).map canonicalText := by
  have hfields := get_of_write_eq dumps_readable rfl h name
  rw [get_canonicalFields, get_canonicalFields, Option.map_map, Option.map_map] at hfields
  exact hfields

/-- The same for a missing field that is read as a default. -/
theorem getD_text_eq {d d' : Dict} (h : canonicalText (.dict d) = canonicalText (.dict d'))
    (name : String) (default : Value) :
    canonicalText ((d.get name).getD default) = canonicalText ((d'.get name).getD default) := by
  have hget := get_text_eq h name
  cases hd : d.get name with
  | none =>
    rw [hd, Option.map_none] at hget
    rw [Option.map_eq_none_iff.mp hget.symm]
  | some v =>
    rw [hd] at hget
    obtain ⟨v', hv', htext⟩ := Option.map_eq_some_iff.mp hget.symm
    rw [hv']
    exact htext.symm

section Payload

variable {event event' : Dict}

theorem text_eq_of_payload_eq (h : canonicalPayload event = canonicalPayload event') :
    canonicalText (.dict event) = canonicalText (.dict event') := h

/-- Where the metadata is no mapping, it is not read. -/
theorem value_of_no_metadata {name : String} (hname : event.get name = none)
    (hmetadata : ∀ d, event.get "metadata" ≠ some (.dict d)) : value event name = .none := by
  unfold value
  rw [hname]
  cases hm : event.get "metadata" with
  | none => rfl
  | some m =>
    cases m with
    | dict d => exact absurd hm (hmetadata d)
    | _ => rfl

theorem value_of_metadata {name : String} {d : Dict} (hname : event.get name = none)
    (hmetadata : event.get "metadata" = some (.dict d)) :
    value event name = (d.get name).getD .none := by
  unfold value
  rw [hname, hmetadata]

/-- A field that may stand in the metadata. -/
theorem value_text_eq (h : canonicalPayload event = canonicalPayload event') (name : String) :
    canonicalText (value event name) = canonicalText (value event' name) := by
  have hname := get_text_eq (text_eq_of_payload_eq h) name
  have hmetadata := get_text_eq (text_eq_of_payload_eq h) "metadata"
  cases hv : event.get name with
  | some v =>
    rw [hv] at hname
    obtain ⟨v', hv', htext⟩ := Option.map_eq_some_iff.mp hname.symm
    simp only [value, hv, hv']
    exact htext.symm
  | none =>
    rw [hv, Option.map_none] at hname
    have hv' := Option.map_eq_none_iff.mp hname.symm
    -- either both metadata are mappings, and are read, or none is
    by_cases hdict : ∃ d, event.get "metadata" = some (.dict d)
    · obtain ⟨d, hd⟩ := hdict
      rw [hd] at hmetadata
      obtain ⟨m', hm', htext⟩ := Option.map_eq_some_iff.mp hmetadata.symm
      obtain ⟨d', rfl⟩ := eq_dict_of_text_eq htext
      rw [value_of_metadata hv hd, value_of_metadata hv' hm']
      exact getD_text_eq htext.symm name .none
    · have hdict' : ∀ d, event'.get "metadata" ≠ some (.dict d) := by
        intro d hd
        rw [hd] at hmetadata
        obtain ⟨m, hm, htext⟩ := Option.map_eq_some_iff.mp hmetadata
        obtain ⟨d', rfl⟩ := eq_dict_of_text_eq htext
        exact hdict ⟨d', hm⟩
      rw [value_of_no_metadata hv fun d hd => hdict ⟨d, hd⟩, value_of_no_metadata hv' hdict']

/-! ### Readings -/

/-- What is asked of an event: an id, timestamps that can be read, an integer duration where one
    counts. -/
structure WellFormed (event : Dict) : Prop where
  identified : (eventId event).isSome
  timestamps : (sortKey event).isSome
  occurredAt : ProperTimestamp ((event.get "occurred_at").getD .none)
  ingestedAt : ProperTimestamp ((event.get "ingested_at").getD .none)
  duration : timed (eventType event) = true →
    duration event = .none ∨ ∃ z, duration event = .int z

/-- What the resolver takes from an event. -/
structure Reading where
  key : Int × Int × String
  eventType : String
  qualified : Bool
  deriving DecidableEq

/-- The reading of an event. -/
def reading (qualifiedReadMs : Int) (event : Dict) : Reading where
  key := (sortKey event).getD (0, 0, "")
  eventType := effectiveType (eventType event)
  qualified := qualifies qualifiedReadMs event == some true

theorem sortKey_eq_some {key : Int × Int × String} (h : sortKey event = some key) :
    timestamp ((event.get "occurred_at").getD .none) = some key.1
      ∧ timestamp ((event.get "ingested_at").getD .none) = some key.2.1
      ∧ key.2.2 = idText event := by
  unfold sortKey at h
  simp only [Option.bind_eq_bind, Option.bind_eq_some_iff, Option.some.injEq] at h
  obtain ⟨occurred, ho, ingested, hi, rfl⟩ := h
  exact ⟨ho, hi, rfl⟩

/-- Events with one id and one payload are sorted alike. -/
theorem sortKey_congr (hw : WellFormed event) (hw' : WellFormed event')
    (hid : eventId event = eventId event') (h : canonicalPayload event = canonicalPayload event') :
    sortKey event = sortKey event' := by
  obtain ⟨k, hk⟩ := Option.isSome_iff_exists.mp hw.identified
  obtain ⟨key, hkey⟩ := Option.isSome_iff_exists.mp hw.timestamps
  obtain ⟨key', hkey'⟩ := Option.isSome_iff_exists.mp hw'.timestamps
  obtain ⟨ho, hi, htext⟩ := sortKey_eq_some hkey
  obtain ⟨ho', hi', htext'⟩ := sortKey_eq_some hkey'
  have hisSome : ∀ {o : Option Int} {z : Int}, o = some z → o.isSome := fun h => by simp [h]
  have hoccurred := timestamp_eq_of_text_eq (getD_text_eq (text_eq_of_payload_eq h) "occurred_at"
    .none) hw.occurredAt hw'.occurredAt (hisSome ho) (hisSome ho')
  have hingested := timestamp_eq_of_text_eq (getD_text_eq (text_eq_of_payload_eq h) "ingested_at"
    .none) hw.ingestedAt hw'.ingestedAt (hisSome hi) (hisSome hi')
  rw [ho, ho', Option.some.injEq] at hoccurred
  rw [hi, hi', Option.some.injEq] at hingested
  rw [idText_of_eventId hk] at htext
  rw [idText_of_eventId (hid ▸ hk)] at htext'
  rw [hkey, hkey']
  exact congrArg some (Prod.ext hoccurred (Prod.ext hingested (htext.trans htext'.symm)))

/-- Events with one payload have the same type, as far as the resolver looks at it. -/
theorem effectiveType_congr (h : canonicalPayload event = canonicalPayload event') :
    effectiveType (eventType event) = effectiveType (eventType event') := by
  unfold eventType
  rw [effectiveType_str, effectiveType_str,
    quoted_eq_of_text_eq (getD_text_eq (text_eq_of_payload_eq h) "event_type" (.str ""))]

theorem mem_eventTypes_of_timed {ty : String} (h : timed ty = true) : ty ∈ eventTypes := by
  simp only [timed, Bool.or_eq_true, beq_iff_eq] at h
  rcases h with rfl | rfl <;> decide

/-- Of the type of an event only the types of the contract matter. -/
theorem effectiveType_of_not_mem {ty : String} (h : ty ∉ eventTypes) : effectiveType ty = "" :=
  if_neg h

theorem effectiveType_of_mem_eventTypes {ty : String} (h : ty ∈ eventTypes) :
    effectiveType ty = ty := if_pos h

theorem timed_effectiveType (ty : String) : timed (effectiveType ty) = timed ty := by
  by_cases hmem : ty ∈ eventTypes
  · rw [effectiveType_of_mem_eventTypes hmem]
  · have hno : timed ty = false :=
      Bool.eq_false_iff.mpr fun h => hmem (mem_eventTypes_of_timed h)
    rw [effectiveType_of_not_mem hmem, hno]
    decide

/-- Events with one payload have the same duration, as a text. -/
theorem duration_text_eq (h : canonicalPayload event = canonicalPayload event') :
    canonicalText (duration event) = canonicalText (duration event') := by
  have hvisible := value_text_eq h "continuous_visible_ms"
  have hdwell := value_text_eq h "dwell_ms"
  have hnull : ∀ e : Dict, value e "continuous_visible_ms" = .none →
      duration e = value e "dwell_ms" := by
    intro e he
    unfold duration
    rw [he]
  by_cases hnone : value event "continuous_visible_ms" = .none
  · have hnone' : value event' "continuous_visible_ms" = .none := by
      rw [hnone] at hvisible
      exact eq_none_of_text_eq hvisible.symm
    rw [hnull event hnone, hnull event' hnone']
    exact hdwell
  · have hnone' : value event' "continuous_visible_ms" ≠ .none := by
      intro hn
      rw [hn] at hvisible
      exact hnone (eq_none_of_text_eq hvisible)
    have hsome : ∀ e : Dict, value e "continuous_visible_ms" ≠ .none →
        duration e = value e "continuous_visible_ms" := by
      intro e he
      unfold duration
      cases hv : value e "continuous_visible_ms" <;> first | rfl | exact absurd hv he
    rw [hsome event hnone, hsome event' hnone']
    exact hvisible

theorem qualifies_congr {qualifiedReadMs : Int} (hw : WellFormed event) (hw' : WellFormed event')
    (h : canonicalPayload event = canonicalPayload event') :
    qualifies qualifiedReadMs event = qualifies qualifiedReadMs event' := by
  have htimed : timed (eventType event) = timed (eventType event') := by
    rw [← timed_effectiveType, effectiveType_congr h, timed_effectiveType]
  have htext := duration_text_eq h
  unfold qualifies
  by_cases ht : timed (eventType event) = true
  · rw [← htimed, if_pos ht, if_pos ht]
    have hduration : duration event = duration event' := by
      rcases hw.duration ht with hd | ⟨z, hd⟩
      · rw [hd] at htext ⊢
        exact (eq_none_of_text_eq htext.symm).symm
      · rcases hw'.duration (htimed ▸ ht) with hd' | ⟨z', hd'⟩
        · rw [hd'] at htext ⊢
          exact eq_none_of_text_eq htext
        · rw [hd, hd'] at htext
          rw [hd, hd', Int.repr_injective htext]
    rw [hduration]
  · rw [← htimed, if_neg ht, if_neg ht]

/-- **The payload and the id determine the reading.** -/
theorem reading_congr {qualifiedReadMs : Int} (hw : WellFormed event) (hw' : WellFormed event')
    (hid : eventId event = eventId event') (h : canonicalPayload event = canonicalPayload event') :
    reading qualifiedReadMs event = reading qualifiedReadMs event' := by
  unfold reading
  rw [sortKey_congr hw hw' hid h, effectiveType_congr h, qualifies_congr hw hw' h]

end Payload

/-! ### The result is a function of the readings -/

/-- One round of the loop. -/
def take (labelVersion : LabelVersion) (v1AnyViewPositive : Bool) (t : Tally) (r : Reading) :
    Tally :=
  let t := t.transition r.eventType
  let t := if labelVersion = .v1 ∧ v1AnyViewPositive ∧ r.eventType = "view"
    then t.add .positive else t
  if r.qualified then t.add (if labelVersion = .v2 then .qualifiedRead else .positive) else t

/-- Readings by their keys. -/
def compareReadings : Reading → Reading → Ordering := compareBy compareKeys Reading.key

instance : Std.TransCmp compareReadings :=
  inferInstanceAs (Std.TransCmp (compareBy compareKeys Reading.key))

/-- The result for the kept events. -/
def resultOfReadings (labelVersion : LabelVersion) (labelWindowClosed v1AnyViewPositive : Bool)
    (duplicates : Nat) (readings : List Reading) : LabelResult :=
  let sorted := stableSort compareReadings readings
  resultOf labelVersion labelWindowClosed duplicates
    (sorted.foldl (take labelVersion v1AnyViewPositive) .empty) (sorted.map fun r => r.key.2.2)

/-- Event types outside of the contract do nothing. -/
theorem transition_effectiveType (t : Tally) (ty : String) :
    t.transition (effectiveType ty) = t.transition ty := by
  by_cases hmem : ty ∈ eventTypes
  · rw [effectiveType_of_mem_eventTypes hmem]
  · have hword : ∀ word ∈ eventTypes, ty ≠ word := by
      rintro word hword rfl
      exact hmem hword
    have hactivated : activated ty = none := by
      unfold activated
      split <;> first | rfl | exact absurd rfl (hword _ (by decide))
    have hreversals : reversals ty = none := by
      unfold reversals
      split <;> first | rfl | exact absurd rfl (hword _ (by decide))
    have hidle : ∀ ty, activated ty = none → reversals ty = none → ty ≠ "visible" → ty ≠ "click" →
        ty ≠ "comment" → ty ≠ "report" → t.transition ty = t := by
      intro ty h₁ h₂ h₃ h₄ h₅ h₆
      simp only [Tally.transition, h₁, h₂, h₃, h₄, h₅, h₆, if_false]
    rw [effectiveType_of_not_mem hmem, hidle ty hactivated hreversals
      (hword _ (by decide)) (hword _ (by decide)) (hword _ (by decide)) (hword _ (by decide)),
      hidle "" rfl rfl (by decide) (by decide) (by decide) (by decide)]

theorem effectiveType_eq_view (ty : String) : effectiveType ty = "view" ↔ ty = "view" := by
  by_cases hmem : ty ∈ eventTypes
  · rw [effectiveType_of_mem_eventTypes hmem]
  · rw [effectiveType_of_not_mem hmem]
    constructor
    · intro h
      exact absurd h (by decide)
    · rintro rfl
      exact absurd (by decide) hmem

section Resolver

variable {labelVersion : LabelVersion} {qualifiedReadMs : Int}
  {labelWindowClosed v1AnyViewPositive : Bool} {defaults : Dict}

/-- One round looks only at the reading. -/
theorem advance_eq_take (t : Tally) (event : Dict) :
    advance labelVersion qualifiedReadMs v1AnyViewPositive t event
      = take labelVersion v1AnyViewPositive t (reading qualifiedReadMs event) := by
  unfold advance take reading
  simp only [transition_effectiveType, effectiveType_eq_view]

/-- Events are sorted as their readings are. -/
theorem map_reading_stableSort (l : List Dict) :
    (stableSort compareEvents l).map (reading qualifiedReadMs)
      = stableSort compareReadings (l.map (reading qualifiedReadMs)) := by
  rw [Lib.stableSort_map]
  rfl

/-- **The result is a function of the readings.** -/
theorem resultOf_eq_resultOfReadings {kept : List Dict} {duplicates : Nat}
    (hkeys : ∀ event ∈ kept, (sortKey event).isSome) :
    resultOf labelVersion labelWindowClosed duplicates
        ((stableSort compareEvents kept).foldl
          (advance labelVersion qualifiedReadMs v1AnyViewPositive) .empty)
        ((stableSort compareEvents kept).map idText)
      = resultOfReadings labelVersion labelWindowClosed v1AnyViewPositive duplicates
        (kept.map (reading qualifiedReadMs)) := by
  have hids : (stableSort compareEvents kept).map idText
      = ((stableSort compareEvents kept).map (reading qualifiedReadMs)).map fun r => r.key.2.2 := by
    rw [List.map_map]
    apply List.map_congr_left
    intro event hevent
    obtain ⟨key, hkey⟩ := Option.isSome_iff_exists.mp (hkeys event (Lib.mem_stableSort.mp hevent))
    simp [reading, hkey, (sortKey_eq_some hkey).2.2]
  unfold resultOfReadings
  rw [hids, ← map_reading_stableSort]
  simp only [List.foldl_map, funext₂ advance_eq_take]

/-- Readings with different ids are never tied. -/
theorem pairwise_compareReadings_ne {l : List Reading} (h : (l.map fun r => r.key.2.2).Nodup) :
    l.Pairwise fun a b => compareReadings a b ≠ .eq := by
  rw [List.Nodup, List.pairwise_map] at h
  exact h.imp fun hne => Lib.compareTriple_ne_eq hne

/-! ### Copies -/

/-- An event with the same id and the same payload. -/
def IsCopy (event original : Dict) : Prop :=
  eventId event = eventId original ∧ canonicalPayload event = canonicalPayload original

theorem IsCopy.refl (event : Dict) : IsCopy event event := ⟨rfl, rfl⟩

/-- Two events share an id and have different payloads. -/
def Conflict (l : List Dict) : Prop :=
  ∃ e ∈ l, ∃ f ∈ l, eventId e = eventId f ∧ canonicalPayload e ≠ canonicalPayload f

theorem conflicting_iff {l : List Dict} (hids : ∀ event ∈ l, (eventId event).isSome) :
    Lib.Conflicting eventId samePayload l ↔ Conflict l := by
  unfold samePayload Conflict
  rw [Lib.conflicting_iff_exists]
  constructor
  · rintro ⟨e, he, f, hf, -, hid, hne⟩
    exact ⟨e, he, f, hf, hid, hne⟩
  · rintro ⟨e, he, f, hf, hid, hne⟩
    exact ⟨e, he, f, hf, hids e he, hid, hne⟩

/-- Copies add no conflict. -/
theorem not_conflict_of_copies {l l' : List Dict} (hno : ¬ Conflict l)
    (hcopies : ∀ e ∈ l', ∃ f ∈ l, IsCopy e f) : ¬ Conflict l' := by
  rintro ⟨e, he, f, hf, hid, hne⟩
  obtain ⟨e₀, he₀, hide, hpe⟩ := hcopies e he
  obtain ⟨f₀, hf₀, hidf, hpf⟩ := hcopies f hf
  exact hno ⟨e₀, he₀, f₀, hf₀, hide.symm.trans (hid.trans hidf),
    fun h => hne (hpe.trans (h.trans hpf.symm))⟩

theorem qualifies_isSome {event : Dict} (h : WellFormed event) :
    (qualifies qualifiedReadMs event).isSome := by
  unfold qualifies
  split_ifs with ht
  · rcases h.duration ht with hd | ⟨z, hd⟩ <;> rw [hd] <;> rfl
  · rfl

/-- The reading of an event tells its id. -/
theorem eventId_eq_reading (qualifiedReadMs : Int) {event : Dict} (h : WellFormed event) :
    eventId event = some (reading qualifiedReadMs event).key.2.2 := by
  obtain ⟨k, hk⟩ := Option.isSome_iff_exists.mp h.identified
  obtain ⟨key, hkey⟩ := Option.isSome_iff_exists.mp h.timestamps
  simp [reading, hkey, (sortKey_eq_some hkey).2.2, idText_of_eventId hk, hk]

/-- Where nothing conflicts, the id of an event tells its reading. -/
theorem reading_eq_iff (qualifiedReadMs : Int) {l : List Dict} (hwell : ∀ event ∈ l, WellFormed event)
    (hno : ¬ Conflict l) :
    ∀ e ∈ l, ∀ f ∈ l, reading qualifiedReadMs e = reading qualifiedReadMs f
      ↔ eventId e = eventId f := by
  intro e he f hf
  constructor
  · intro h
    rw [eventId_eq_reading qualifiedReadMs (hwell e he), h,
      ← eventId_eq_reading qualifiedReadMs (hwell f hf)]
  · intro hid
    have hpayload : canonicalPayload e = canonicalPayload f := by
      by_contra hne
      exact hno ⟨e, he, f, hf, hid, hne⟩
    exact reading_congr (hwell e he) (hwell f hf) hid hpayload

section Events

variable {events events' : List Dict}

/-- The resolver on well-formed mappings. -/
theorem deriveLabel_mapping_eq_ok_iff {r : LabelResult} (hpos : 0 < qualifiedReadMs)
    (hwell : ∀ event ∈ events.map (Object.merge defaults), WellFormed event) :
    deriveLabel (events.map .mapping) labelVersion qualifiedReadMs labelWindowClosed defaults
        v1AnyViewPositive = .ok r ↔
      ¬ Conflict (events.map (Object.merge defaults))
        ∧ r = resultOfReadings labelVersion labelWindowClosed v1AnyViewPositive
          (Lib.collected eventId (events.map (Object.merge defaults))).duplicates
          ((Lib.collected eventId (events.map (Object.merge defaults))).unique.map
            (reading qualifiedReadMs)) := by
  have hexpanded : (events.map Event.mapping).map (eventMapping defaults)
      = events.map (Object.merge defaults) := by
    rw [List.map_map]
    rfl
  have hids : ∀ event ∈ events.map (Object.merge defaults), (eventId event).isSome :=
    fun event h => (hwell event h).identified
  have haccepted : acceptedEvents defaults (events.map .mapping)
      = (Lib.collected eventId (events.map (Object.merge defaults))).unique := by
    rw [acceptedEvents, hexpanded, Lib.Collected.accepted, Lib.collected_anonymous hids,
      List.append_nil]
  have hkept : ∀ event ∈ (Lib.collected eventId (events.map (Object.merge defaults))).unique,
      WellFormed event := fun event h => hwell event (Lib.mem_collected_unique h).1
  have hkeys := fun event h => (hkept event h).timestamps
  rw [deriveLabel_eq_ok_iff hpos, haccepted, hexpanded, conflicting_iff hids,
    resultOf_eq_resultOfReadings hkeys]
  constructor
  · rintro ⟨hno, -, -, hr⟩
    exact ⟨hno, hr⟩
  · rintro ⟨hno, hr⟩
    exact ⟨hno, hkeys, fun event h => qualifies_isSome (hkept event h), hr⟩

/-- **Only the set of events matters.**  A list of copies of the events, each of them at least
    once, has the same result, except for the number of duplicates. -/
theorem deriveLabel_of_copies {r : LabelResult} (hpos : 0 < qualifiedReadMs)
    (hwell : ∀ event ∈ events.map (Object.merge defaults), WellFormed event)
    (hwell' : ∀ event ∈ events'.map (Object.merge defaults), WellFormed event)
    (hcopies : ∀ e ∈ events'.map (Object.merge defaults),
      ∃ f ∈ events.map (Object.merge defaults), IsCopy e f)
    (hall : ∀ e ∈ events.map (Object.merge defaults),
      ∃ f ∈ events'.map (Object.merge defaults), IsCopy e f)
    (h : deriveLabel (events.map .mapping) labelVersion qualifiedReadMs labelWindowClosed defaults
      v1AnyViewPositive = .ok r) :
    ∃ duplicates, deriveLabel (events'.map .mapping) labelVersion qualifiedReadMs labelWindowClosed
        defaults v1AnyViewPositive = .ok { r with deduplicatedEvents := duplicates }
      ∧ duplicates + events.length = r.deduplicatedEvents + events'.length := by
  obtain ⟨hno, rfl⟩ := (deriveLabel_mapping_eq_ok_iff hpos hwell).mp h
  have hno' := not_conflict_of_copies hno hcopies
  have hiff := reading_eq_iff qualifiedReadMs hwell hno
  have hiff' := reading_eq_iff qualifiedReadMs hwell' hno'
  have hids := fun event he => (hwell event he).identified
  have hids' := fun event he => (hwell' event he).identified
  have hread : ∀ {l l' : List Dict}, (∀ e ∈ l, WellFormed e) → (∀ e ∈ l', WellFormed e) →
      (∀ e ∈ l, ∃ f ∈ l', IsCopy e f) → ∀ x ∈ l.map (reading qualifiedReadMs),
      x ∈ l'.map (reading qualifiedReadMs) := by
    intro l l' hw hw' hcopy x hx
    obtain ⟨e, he, rfl⟩ := List.mem_map.mp hx
    obtain ⟨f, hf, hid, hpayload⟩ := hcopy e he
    exact List.mem_map.mpr ⟨f, hf, (reading_congr (hw e he) (hw' f hf) hid hpayload).symm⟩
  have hperm := Lib.map_unique_perm hids hids' hiff hiff' fun x =>
    ⟨hread hwell hwell' hall x, hread hwell' hwell hcopies x⟩
  -- no two readings are tied, so their order before sorting does not matter
  have hnodup : (((Lib.collected eventId (events.map (Object.merge defaults))).unique.map
      (reading qualifiedReadMs)).map fun r => r.key.2.2).Nodup := by
    rw [List.map_map]
    apply Lib.nodup_map_unique
    intro e he f hf heq
    rw [eventId_eq_reading qualifiedReadMs (hwell e he), eventId_eq_reading qualifiedReadMs (hwell f hf)]
    exact congrArg some heq
  have hsorted := Lib.stableSort_eq_of_perm hperm (pairwise_compareReadings_ne hnodup)
  refine ⟨(Lib.collected eventId (events'.map (Object.merge defaults))).duplicates,
    (deriveLabel_mapping_eq_ok_iff hpos hwell').mpr ⟨hno', ?_⟩, ?_⟩
  · unfold resultOfReadings
    rw [hsorted]
    rfl
  · have hlength : ∀ l : List Dict, (∀ e ∈ l, (eventId e).isSome) →
        (Lib.collected eventId l).unique.length + (Lib.collected eventId l).duplicates
          = l.length := by
      intro l hl
      have h := Lib.length_collected eventId l
      rwa [Lib.Collected.accepted, Lib.collected_anonymous hl, List.append_nil] at h
    have hkept := hperm.length_eq
    have h₁ := hlength _ hids
    have h₂ := hlength _ hids'
    simp only [List.length_map] at hkept h₁ h₂
    show _ = (Lib.collected eventId (events.map (Object.merge defaults))).duplicates + _
    omega

/-- **The label depends only on the set of events.**  Well-formed events are rejected exactly when
    two of them share an id and have different payloads.  Otherwise every permutation of the list
    has the same result, and appending copies only adds to the number of duplicates. -/
theorem deriveLabel_of_set (hpos : 0 < qualifiedReadMs)
    (hwell : ∀ event ∈ events, WellFormed (Object.merge defaults event)) :
    ((∃ raised, deriveLabel (events.map .mapping) labelVersion qualifiedReadMs labelWindowClosed
        defaults v1AnyViewPositive = .error raised)
      ↔ ∃ e ∈ events, ∃ f ∈ events,
        eventId (Object.merge defaults e) = eventId (Object.merge defaults f)
          ∧ canonicalPayload (Object.merge defaults e) ≠ canonicalPayload (Object.merge defaults f))
    ∧ ∀ r, deriveLabel (events.map .mapping) labelVersion qualifiedReadMs labelWindowClosed
        defaults v1AnyViewPositive = .ok r →
      (∀ events', events.Perm events' →
        deriveLabel (events'.map .mapping) labelVersion qualifiedReadMs labelWindowClosed defaults
          v1AnyViewPositive = .ok r)
      ∧ ∀ copies : List Dict,
        (∀ c ∈ copies, WellFormed (Object.merge defaults c)
          ∧ ∃ e ∈ events, IsCopy (Object.merge defaults c) (Object.merge defaults e)) →
        deriveLabel ((events ++ copies).map .mapping) labelVersion qualifiedReadMs labelWindowClosed
          defaults v1AnyViewPositive
          = .ok { r with deduplicatedEvents := r.deduplicatedEvents + copies.length } := by
  have hwell' : ∀ event ∈ events.map (Object.merge defaults), WellFormed event :=
    List.forall_mem_map.mpr hwell
  refine ⟨?_, fun r hr => ⟨?_, ?_⟩⟩
  · have hconflict : Conflict (events.map (Object.merge defaults)) ↔ ∃ e ∈ events, ∃ f ∈ events,
        eventId (Object.merge defaults e) = eventId (Object.merge defaults f)
          ∧ canonicalPayload (Object.merge defaults e)
            ≠ canonicalPayload (Object.merge defaults f) := by
      simp [Conflict]
    rw [← hconflict]
    constructor
    · rintro ⟨raised, hraised⟩
      by_contra hno
      obtain ⟨r, hr⟩ : ∃ r, deriveLabel (events.map .mapping) labelVersion qualifiedReadMs
          labelWindowClosed defaults v1AnyViewPositive = .ok r :=
        ⟨_, (deriveLabel_mapping_eq_ok_iff hpos hwell').mpr ⟨hno, rfl⟩⟩
      rw [hraised] at hr
      contradiction
    · intro hconflicting
      cases hresult : deriveLabel (events.map .mapping) labelVersion qualifiedReadMs
        labelWindowClosed defaults v1AnyViewPositive with
      | error raised => exact ⟨raised, rfl⟩
      | ok r => exact absurd hconflicting ((deriveLabel_mapping_eq_ok_iff hpos hwell').mp hresult).1
  · intro events' hperm
    have hsame := hperm.map (Object.merge defaults)
    obtain ⟨duplicates, hresult, hcount⟩ := deriveLabel_of_copies hpos hwell'
      (fun e he => hwell' e (hsame.mem_iff.mpr he))
      (fun e he => ⟨e, hsame.mem_iff.mpr he, .refl e⟩)
      (fun e he => ⟨e, hsame.mem_iff.mp he, .refl e⟩) hr
    obtain rfl : duplicates = r.deduplicatedEvents := by
      rw [hperm.length_eq] at hcount
      omega
    exact hresult
  · intro copies hcopies
    have hmap : (events ++ copies).map (Object.merge defaults)
        = events.map (Object.merge defaults) ++ copies.map (Object.merge defaults) := List.map_append
    have hwells : ∀ event ∈ (events ++ copies).map (Object.merge defaults), WellFormed event := by
      rw [hmap, List.forall_mem_append]
      exact ⟨hwell', List.forall_mem_map.mpr fun c hc => (hcopies c hc).1⟩
    have horiginals : ∀ e ∈ (events ++ copies).map (Object.merge defaults),
        ∃ f ∈ events.map (Object.merge defaults), IsCopy e f := by
      rw [hmap, List.forall_mem_append]
      refine ⟨fun e he => ⟨e, he, .refl e⟩, List.forall_mem_map.mpr fun c hc => ?_⟩
      obtain ⟨e, he, hcopy⟩ := (hcopies c hc).2
      exact ⟨_, List.mem_map_of_mem he, hcopy⟩
    have hall : ∀ e ∈ events.map (Object.merge defaults),
        ∃ f ∈ (events ++ copies).map (Object.merge defaults), IsCopy e f := by
      intro e he
      rw [hmap]
      exact ⟨e, List.mem_append_left _ he, .refl e⟩
    obtain ⟨duplicates, hresult, hcount⟩ :=
      deriveLabel_of_copies hpos hwell' hwells horiginals hall hr
    obtain rfl : duplicates = r.deduplicatedEvents + copies.length := by
      rw [List.length_append] at hcount
      omega
    exact hresult

end Events

end Resolver

/-- A click as it is read from the database. -/
def clickRow : Dict :=
  [("event_id", .uuid 1), ("event_type", .str "click"),
   ("occurred_at", .datetime ⟨2026, 1, 2, 3, 4, 5, 0, some 0⟩)]

/-- The same click as it is read from a document. -/
def clickDocument : Dict :=
  [("occurred_at", .str "2026-01-02T03:04:05+00:00"), ("event_type", .str "click"),
   ("event_id", .str "00000000-0000-0000-0000-000000000001")]

/-- The row and the document are copies, and only the row is counted. -/
theorem deriveLabel_of_set_click :
    deriveLabel (([clickRow] ++ [clickDocument]).map .mapping) .v2 10000 true [] false
      = .ok ⟨⟨.click, some 1, 1, 1, ["00000000-0000-0000-0000-000000000001"]⟩, []⟩ := by
  have hrow : WellFormed (Object.merge [] clickRow) :=
    ⟨by decide, by decide, (by decide : Datetime.Proper ⟨2026, 1, 2, 3, 4, 5, 0, some 0⟩
      ∧ Datetime.OffsetKept ⟨2026, 1, 2, 3, 4, 5, 0, some 0⟩), trivial,
      fun h => absurd h (by decide)⟩
  have hdocument : WellFormed (Object.merge [] clickDocument) :=
    ⟨by decide, by decide, trivial, trivial, fun h => absurd h (by decide)⟩
  have hresult : deriveLabel ([clickRow].map .mapping) .v2 10000 true [] false
      = .ok ⟨⟨.click, some 1, 1, 0, ["00000000-0000-0000-0000-000000000001"]⟩, []⟩ := by
    decide
  have hwell : ∀ event ∈ [clickRow], WellFormed (Object.merge [] event) := by
    intro event hevent
    rw [List.mem_singleton.mp hevent]
    exact hrow
  refine ((deriveLabel_of_set (by decide) hwell).2 _ hresult).2 [clickDocument] ?_
  intro c hc
  rw [List.mem_singleton.mp hc]
  have hpayload : canonicalPayload (Object.merge [] clickDocument)
      = canonicalPayload (Object.merge [] clickRow) := by decide +kernel
  exact ⟨hdocument, clickRow, List.mem_singleton_self _, by decide, hpayload⟩

/-- A like at noon of a clock that is half a second ahead of UTC. -/
def likeAhead : Dict :=
  [("event_id", .str "a"), ("event_type", .str "like"),
   ("occurred_at", .datetime ⟨2026, 1, 2, 12, 0, 0, 0, some 500000⟩)]

/-- The same like with its time as a text. -/
def likeAheadText : Dict :=
  [("event_id", .str "a"), ("event_type", .str "like"),
   ("occurred_at", .str "2026-01-02T12:00:00+00:00:00.500000")]

/-- The like is taken back a quarter of a second later. -/
def unlikeSoon : Dict :=
  [("event_id", .str "b"), ("event_type", .str "unlike"),
   ("occurred_at", .str "2026-01-02T11:59:59.750000Z")]

/-- **Counterexample.**  `fromisoformat` takes the offset of half a second for UTC, so that the two
    copies of the like are different instants.  Whichever of them is first in the list is kept, and
    the reversal comes after the one and before the other. -/
theorem deriveLabel_depends_on_order :
    (∀ event ∈ [likeAhead, likeAheadText, unlikeSoon],
      (eventId event).isSome ∧ (sortKey event).isSome)
    ∧ IsCopy likeAheadText likeAhead
    ∧ [likeAhead, likeAheadText, unlikeSoon].Perm [likeAheadText, likeAhead, unlikeSoon]
    ∧ (deriveLabel ([likeAhead, likeAheadText, unlikeSoon].map .mapping) .v2 10000 true [] false
      ).toOption.map (fun r => r.semantic) = some .negative
    ∧ (deriveLabel ([likeAheadText, likeAhead, unlikeSoon].map .mapping) .v2 10000 true [] false
      ).toOption.map (fun r => r.semantic) = some .positive := by
  refine ⟨by decide +kernel, ⟨by decide +kernel, by decide +kernel⟩, List.Perm.swap _ _ _,
    by decide +kernel, by decide +kernel⟩

end Oecophylla.Label.Python
