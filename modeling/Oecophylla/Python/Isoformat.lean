import Oecophylla.Python.Fromisoformat
import Oecophylla.Python.UuidText

namespace Oecophylla.Python

/-!
# `isoformat` and `fromisoformat`

* `Datetime.Proper` — the ranges that the constructor of `datetime` and of its timezone check;
* `Datetime.OffsetKept` — the offsets that are read back: all but those of less than a second,
  which are taken for UTC;
* `pad_spec` — a padded number: its length, its digits and its value;
* `fromisoformat_isoformat` — parsing the text of a `datetime` gives it back;
* `fromisoformat_uuidText` — the text of a UUID cannot be parsed as a `datetime`.
-/

/-- What holds of every `datetime`. -/
structure Datetime.Proper (t : Datetime) : Prop where
  valid : t.valid = true
  microsecond : t.microsecond < 1000000
  utcoffset : ∀ o ∈ t.utcoffset, (o.natAbs : Int) < dayMicros

instance (t : Datetime) : Decidable t.Proper :=
  decidable_of_iff (t.valid = true ∧ t.microsecond < 1000000
      ∧ ∀ o ∈ t.utcoffset, (o.natAbs : Int) < dayMicros)
    ⟨fun ⟨h₁, h₂, h₃⟩ => ⟨h₁, h₂, h₃⟩, fun h => ⟨h.valid, h.microsecond, h.utcoffset⟩⟩

/-- The offset is not one of less than a second. -/
def Datetime.OffsetKept (t : Datetime) : Prop :=
  ∀ o ∈ t.utcoffset, o = 0 ∨ 1000000 ≤ (o.natAbs : Int)

instance (t : Datetime) : Decidable t.OffsetKept :=
  inferInstanceAs (Decidable (∀ o ∈ t.utcoffset, _))

/-! ### Padded numbers -/

theorem drop_append_cons {α : Type*} {a b : List α} {c : α} {n : Nat} (h : a.length = n) :
    (a ++ c :: b).drop (n + 1) = b := by
  rw [← List.drop_drop, List.drop_left' h, List.drop_succ_cons, List.drop_zero]

/-- **A padded number.** -/
theorem pad_spec (width : Nat) {n : Nat} (hwidth : 0 < width) (hn : n < 10 ^ width) :
    (pad width n).toList.length = width ∧ (pad width n).toList.all Char.isDigit = true
      ∧ (pad width n).toList.foldl (fun n c => n * 10 + (c.toNat - 48)) 0 = n := by
  have htext : (toString n).toList = Nat.toDigits 10 n := by
    rw [Nat.toString_eq_repr, Nat.toList_repr]
  have hlength : (toString n).length = (Nat.toDigits 10 n).length := by
    rw [← htext, String.length_toList]
  have hle : (Nat.toDigits 10 n).length ≤ width :=
    (Nat.length_toDigits_le_iff (by decide) hwidth).mpr hn
  have hlist : (pad width n).toList
      = List.replicate (width - (Nat.toDigits 10 n).length) '0' ++ Nat.toDigits 10 n := by
    rw [pad, String.toList_append, zeros, String.toList_ofList, htext, hlength]
  have hfold : ∀ (l : List Char) (init : Nat),
      l.foldl (fun n c => n * 10 + (c.toNat - 48)) init = Nat.ofDigitChars 10 l init := by
    intro l
    induction l with
    | nil => exact fun init => rfl
    | cons c l ih =>
      intro init
      rw [List.foldl_cons, ih, Nat.ofDigitChars_cons, Nat.mul_comm]
      rfl
  refine ⟨?_, ?_, ?_⟩
  · rw [hlist, List.length_append, List.length_replicate]
    omega
  · rw [hlist, List.all_append, List.all_replicate]
    have hdigits : (Nat.toDigits 10 n).all Char.isDigit = true :=
      List.all_eq_true.mpr fun c hc => Nat.isDigit_of_mem_toDigits (by decide) (by decide) hc
    rw [hdigits]
    split <;> rfl
  · rw [hlist, hfold, Nat.ofDigitChars_append, Nat.ofDigitChars_replicate_zero, Nat.mul_zero,
      Nat.ofDigitChars_ten_toDigits]

/-- A padded number is not empty. -/
theorem pad_ne_nil {width n : Nat} (hwidth : 0 < width) (hn : n < 10 ^ width) :
    (pad width n).toList ≠ [] := by
  intro hnil
  have hlength := (pad_spec width hwidth hn).1
  rw [hnil] at hlength
  exact absurd hlength hwidth.ne

/-- No week begins with a padded number. -/
theorem head_pad_ne {n : Nat} (hn : n < 100) (rest : List Char) :
    ((pad 2 n).toList ++ rest).head? ≠ some 'W' := by
  obtain ⟨-, hdigits, -⟩ := pad_spec 2 (by decide) hn
  intro h
  rw [List.head?_append_of_ne_nil _ (@pad_ne_nil 2 n (by decide) hn)] at h
  exact absurd (List.all_eq_true.mp hdigits _ (List.mem_of_head? h)) (by decide)

/-- Two padded digits. -/
theorem twoDigits_pad {n : Nat} (hn : n < 100) (rest : List Char) :
    twoDigits ((pad 2 n).toList ++ rest) = some (n, rest) := by
  obtain ⟨hlength, hdigits, hvalue⟩ := pad_spec 2 (by decide) hn
  match hlist : (pad 2 n).toList, hlength with
  | [a, b], _ =>
    rw [hlist] at hdigits hvalue
    simp only [List.all_cons, List.all_nil, Bool.and_true, Bool.and_eq_true] at hdigits
    have hdecimal : decimal [a, b] = n := hvalue
    simp [twoDigits, hdigits, hdecimal]

/-- Six padded digits of a fraction. -/
theorem fraction_pad {n : Nat} (hn : n < 1000000) :
    fraction (pad 6 n).toList = some (n, false) := by
  obtain ⟨hlength, hdigits, hvalue⟩ := pad_spec 6 (by decide) hn
  have hne := @pad_ne_nil 6 n (by decide) hn
  have htake : (pad 6 n).toList.take 6 = (pad 6 n).toList := List.take_of_length_le hlength.le
  have hdrop : (pad 6 n).toList.drop 6 = [] := List.drop_of_length_le hlength.le
  have hdecimal : decimal (pad 6 n).toList = n := hvalue
  unfold fraction
  rw [htake, hdrop, if_pos ⟨hne, hdigits⟩, List.take_left' hlength, hdecimal]
  rfl

/-! ### Clocks -/

section Clock

/-- The last number. -/
theorem numbers_end {x : Nat} (hx : x < 100) (colons : Option Bool) (n : Nat) :
    numbers colons (n + 1) (pad 2 x).toList = some ([x], 0, false) := by
  have hx' := twoDigits_pad hx []
  rw [List.append_nil] at hx'
  rw [numbers, hx']

/-- A number in front of a colon. -/
theorem numbers_colon {x : Nat} (hx : x < 100) {colons : Option Bool} (hcolons : colons.getD true = true)
    (n : Nat) {rest : List Char} (hrest : rest ≠ []) :
    numbers colons (n + 1) ((pad 2 x).toList ++ ':' :: rest)
      = (numbers (some true) n rest).map fun (xs, f, more) => (x :: xs, f, more) := by
  rw [numbers, twoDigits_pad hx]
  simp only [hrest, false_and, if_false, decide_true, hcolons, and_self, if_true]

/-- A number in front of a point. -/
theorem numbers_point {x : Nat} (hx : x < 100) (colons : Option Bool) (n : Nat) {rest : List Char}
    (hrest : rest ≠ []) :
    numbers colons (n + 1) ((pad 2 x).toList ++ '.' :: rest)
      = (fraction rest).map fun (f, more) => ([x], f, more) := by
  have hcolon : ¬ '.' = ':' := by decide
  rw [numbers, twoDigits_pad hx]
  simp only [hrest, false_and, if_false, hcolon, and_false, true_or, if_true, Option.map_map]
  rfl

variable {h m s f : Nat}

/-- `HH:MM`. -/
def hoursMinutes (h m : Nat) : List Char := (pad 2 h).toList ++ ':' :: (pad 2 m).toList

/-- `:SS`, with a fraction if there is one. -/
def secondsText (s f : Nat) : List Char :=
  ':' :: (pad 2 s).toList ++ if f = 0 then [] else '.' :: (pad 6 f).toList

theorem clock_hoursMinutes (hh : h < 100) (hm : m < 100) :
    clock (hoursMinutes h m) = some ((h, m, 0, 0), false) := by
  have hnumbers : numbers none 3 (hoursMinutes h m) = some ([h, m], 0, false) := by
    unfold hoursMinutes
    rw [numbers_colon hh rfl 2 (@pad_ne_nil 2 m (by decide) hm), numbers_end hm, Option.map_some]
  rw [clock, hnumbers]
  rfl

theorem clock_seconds (hh : h < 100) (hm : m < 100) (hs : s < 100) (hf : f < 1000000) :
    clock (hoursMinutes h m ++ secondsText s f) = some ((h, m, s, f), false) := by
  have hseconds : numbers (some true) 1
      ((pad 2 s).toList ++ if f = 0 then [] else '.' :: (pad 6 f).toList) = some ([s], f, false) := by
    by_cases hzero : f = 0
    · rw [if_pos hzero, List.append_nil, numbers_end hs, hzero]
    · rw [if_neg hzero, numbers_point hs _ 0 (@pad_ne_nil 6 f (by decide) hf), fraction_pad hf,
        Option.map_some]
  have hminutes := List.append_ne_nil_of_left_ne_nil (@pad_ne_nil 2 m (by decide) hm)
    (secondsText s f)
  have hne := List.append_ne_nil_of_left_ne_nil (@pad_ne_nil 2 s (by decide) hs)
    (if f = 0 then [] else '.' :: (pad 6 f).toList)
  have hnumbers : numbers none 3 (hoursMinutes h m ++ secondsText s f)
      = some ([h, m, s], f, false) := by
    unfold hoursMinutes
    rw [List.append_assoc, List.cons_append, numbers_colon hh rfl 2 hminutes, secondsText,
      List.cons_append, numbers_colon hm rfl 1 hne, hseconds, Option.map_some, Option.map_some]
  rw [clock, hnumbers]
  rfl

end Clock

/-! ### Offsets -/

/-- The text of an offset behind its sign. -/
def offsetText (micros : Nat) : List Char :=
  let s := micros / 1000000
  hoursMinutes (s / 3600) (s / 60 % 60)
    ++ if micros % 60000000 = 0 then [] else secondsText (s % 60) (micros % 1000000)

theorem clock_offsetText {micros : Nat} (hmicros : (micros : Int) < dayMicros) :
    clock (offsetText micros) = some ((micros / 1000000 / 3600, micros / 1000000 / 60 % 60,
      micros / 1000000 % 60, micros % 1000000), false) := by
  unfold dayMicros at hmicros
  unfold offsetText
  by_cases hzero : micros % 60000000 = 0
  · have hs : micros / 1000000 % 60 = 0 := by omega
    have hf : micros % 1000000 = 0 := by omega
    simp only [hzero, if_true, List.append_nil, hs, hf]
    exact clock_hoursMinutes (by omega) (by omega)
  · simp only [hzero, if_false]
    exact clock_seconds (by omega) (by omega) (by omega) (by omega)

/-- The sign of an offset. -/
def signOf (o : Int) : Char := if o < 0 then '-' else '+'

/-- What `isoformat` writes behind the time. -/
def zoneText : Option Int → List Char
  | Option.none => []
  | some o => signOf o :: offsetText o.natAbs

theorem offsetOfText_zoneText {offset : Option Int}
    (h : ∀ o ∈ offset, (o.natAbs : Int) < dayMicros)
    (hkept : ∀ o ∈ offset, o = 0 ∨ 1000000 ≤ (o.natAbs : Int)) :
    offsetOfText false (zoneText offset) = some offset := by
  cases offset with
  | none => rfl
  | some o =>
    have hlt := h o rfl
    have hsecond := hkept o rfl
    have hsign : ¬ signOf o = 'Z' := by
      unfold signOf
      split <;> decide
    -- what the numbers of the offset stand for
    have hmicros : (if (o.natAbs / 1000000 / 3600 * 60 + o.natAbs / 1000000 / 60 % 60) * 60
        + o.natAbs / 1000000 % 60 = 0 then (0 : Int)
        else ((((o.natAbs / 1000000 / 3600 * 60 + o.natAbs / 1000000 / 60 % 60) * 60
          + o.natAbs / 1000000 % 60) * 1000000 + o.natAbs % 1000000 : Nat) : Int)) = o.natAbs := by
      split_ifs <;> omega
    unfold zoneText offsetOfText
    simp only [if_neg hsign, clock_offsetText hlt, hmicros, if_pos hlt]
    unfold signOf
    by_cases hneg : o < 0
    · rw [if_pos hneg, if_pos rfl, Int.ofNat_natAbs_of_nonpos hneg.le, neg_neg]
    · have hplus : ¬ '+' = '-' := by decide
      rw [if_neg hneg, if_neg hplus, Int.natAbs_of_nonneg (not_lt.mp hneg)]

/-! ### The round trip -/

/-- The characters of the text of a `datetime`. -/
theorem toList_format (t : Datetime) (sep : String) :
    (t.format sep).toList = (pad 4 t.year).toList ++ '-' :: ((pad 2 t.month).toList
      ++ '-' :: ((pad 2 t.day).toList ++ (sep.toList ++ ((hoursMinutes t.hour t.minute
        ++ secondsText t.second t.microsecond) ++ zoneText t.utcoffset)))) := by
  have hdash : "-".toList = ['-'] := rfl
  have hcolon : ":".toList = [':'] := rfl
  have hdot : ".".toList = ['.'] := rfl
  have hplus : "+".toList = ['+'] := rfl
  have hempty : "".toList = [] := rfl
  have hfraction : ∀ n : Nat, (if n = 0 then "" else "." ++ pad 6 n).toList
      = if n = 0 then [] else '.' :: (pad 6 n).toList := by
    intro n
    split <;> simp [hdot]
  cases hoffset : t.utcoffset with
  | none =>
    simp only [Datetime.format, hoffset, String.toList_append, hdash, hcolon, hfraction,
      hoursMinutes, secondsText, zoneText, hempty]
    simp
  | some o =>
    have hsign : (if o < 0 then "-" else "+").toList = [signOf o] := by
      unfold signOf
      split <;> rfl
    have hseconds : (if o.natAbs % 60000000 = 0 then ""
          else ":" ++ pad 2 (o.natAbs / 1000000 % 60)).toList
        ++ (if o.natAbs % 1000000 = 0 then [] else '.' :: (pad 6 (o.natAbs % 1000000)).toList)
        = if o.natAbs % 60000000 = 0 then []
          else secondsText (o.natAbs / 1000000 % 60) (o.natAbs % 1000000) := by
      by_cases hzero : o.natAbs % 60000000 = 0
      · have hf : o.natAbs % 1000000 = 0 := by omega
        simp [hzero, hf]
      · simp [hzero, secondsText, hcolon]
    simp only [Datetime.format, hoffset, String.toList_append, hdash, hcolon, hfraction, hsign,
      List.append_assoc, hseconds]
    simp [hoursMinutes, secondsText, zoneText, offsetText]

/-- The characters between the date and the offset. -/
def clockChar (c : Char) : Bool := c.isDigit || c == ':' || c == '.'

theorem all_clockChar_pad (width : Nat) {n : Nat} (hwidth : 0 < width) (hn : n < 10 ^ width) :
    (pad width n).toList.all clockChar = true := by
  obtain ⟨-, hdigits, -⟩ := pad_spec width hwidth hn
  rw [List.all_eq_true] at hdigits ⊢
  intro c hc
  simp [clockChar, hdigits c hc]

theorem all_clockChar {h m s f : Nat} (hh : h < 100) (hm : m < 100) (hs : s < 100)
    (hf : f < 1000000) : (hoursMinutes h m ++ secondsText s f).all clockChar = true := by
  have hcolon : clockChar ':' = true := by decide
  have hdot : clockChar '.' = true := by decide
  have htwo : ∀ n < 100, (pad 2 n).toList.all clockChar = true :=
    fun n hn => all_clockChar_pad 2 (by decide) hn
  have hsix := all_clockChar_pad 6 (by decide) hf
  by_cases hzero : f = 0
  · simp [hoursMinutes, secondsText, List.all_append, htwo h hh, htwo m hm, htwo s hs, hcolon,
      hzero]
  · simp [hoursMinutes, secondsText, List.all_append, htwo h hh, htwo m hm, htwo s hs, hcolon,
      hdot, hsix, hzero]

theorem all_clockChar_offsetText {micros : Nat} (hmicros : (micros : Int) < dayMicros) :
    (offsetText micros).all clockChar = true := by
  unfold dayMicros at hmicros
  have hall := all_clockChar (h := micros / 1000000 / 3600) (m := micros / 1000000 / 60 % 60)
    (s := micros / 1000000 % 60) (f := micros % 1000000) (by omega) (by omega) (by omega) (by omega)
  rw [List.all_append, Bool.and_eq_true] at hall
  simp only [offsetText, List.all_append, hall.1, Bool.true_and]
  by_cases hzero : micros % 60000000 = 0
  · rw [if_pos hzero]
    rfl
  · rw [if_neg hzero]
    exact hall.2

/-- The time ends where the offset begins. -/
theorem span_zone {clockText : List Char} (hclock : clockText.all clockChar = true)
    (offset : Option Int) :
    (clockText ++ zoneText offset).takeWhile (fun c => !isZone c) = clockText
      ∧ (clockText ++ zoneText offset).dropWhile (fun c => !isZone c) = zoneText offset := by
  have hplain : ∀ c ∈ clockText, (!isZone c) = true := by
    intro c hc
    have hchar := List.all_eq_true.mp hclock c hc
    cases hzone : isZone c with
    | false => rfl
    | true =>
      simp only [isZone, Bool.or_eq_true, decide_eq_true_eq] at hzone
      rcases hzone with (rfl | rfl) | rfl <;> exact absurd hchar (by decide)
  have hstop : (zoneText offset).takeWhile (fun c => !isZone c) = []
      ∧ (zoneText offset).dropWhile (fun c => !isZone c) = zoneText offset := by
    cases offset with
    | none => exact ⟨rfl, rfl⟩
    | some o =>
      simp only [zoneText, signOf]
      split_ifs <;> exact ⟨rfl, rfl⟩
  rw [List.takeWhile_append_of_pos hplain, List.dropWhile_append_of_pos hplain, hstop.1, hstop.2,
    List.append_nil]
  exact ⟨rfl, rfl⟩

/-- The ranges of the components. -/
theorem Datetime.Proper.bounds {t : Datetime} (h : t.Proper) :
    t.year < 10 ^ 4 ∧ t.month < 100 ∧ t.day < 100 ∧ t.hour < 100 ∧ t.minute < 100
      ∧ t.second < 100 := by
  have hvalid := h.valid
  simp only [Datetime.valid, decide_eq_true_eq] at hvalid
  have hdays : daysInMonth t.year t.month ≤ 31 := by
    unfold daysInMonth
    split_ifs <;> omega
  omega

/-- A calendar date with hyphens has ten characters. -/
theorem separatorAt_calendar {year rest : List Char} (hyear : year.length = 4)
    (hweek : rest.head? ≠ some 'W') (hlong : 7 < (year ++ '-' :: rest).length) :
    separatorAt (year ++ '-' :: rest) = some 10 := by
  have hfour : (year ++ '-' :: rest)[4]? = some '-' := by
    rw [List.getElem?_append_right hyear.le, hyear, Nat.sub_self, List.getElem?_cons_zero]
  have hfive : (year ++ '-' :: rest)[5]? = rest.head? := by
    rw [List.getElem?_append_right (by omega), hyear, List.head?_eq_getElem?]
    exact List.getElem?_cons_succ
  unfold separatorAt
  rw [if_neg hlong.ne', if_pos hfour, hfive, if_neg hweek]

/-- The date of the text of a `datetime`. -/
theorem isoDate_format {year month day : Nat} (hyear : year < 10 ^ 4) (hmonth : month < 100)
    (hday : day < 100) (rest : List Char) :
    isoDate 10 ((pad 4 year).toList ++ '-' :: ((pad 2 month).toList
      ++ '-' :: ((pad 2 day).toList ++ rest))) = some (year, month, day) := by
  obtain ⟨hlength, hdigits, hvalue⟩ := pad_spec 4 (by decide) hyear
  have hdecimal : decimal (pad 4 year).toList = year := hvalue
  have hdash : ∀ cs : List Char, ((pad 4 year).toList ++ '-' :: cs)[4]? = some '-' := by
    intro cs
    rw [List.getElem?_append_right hlength.le, hlength]
    rfl
  have hfive : ∀ cs : List Char, ((pad 4 year).toList ++ '-' :: cs).drop 5 = cs :=
    fun cs => drop_append_cons hlength
  have hweek := head_pad_ne hmonth ('-' :: ((pad 2 day).toList ++ rest))
  unfold isoDate
  simp only [hdash, hfive, List.take_left' hlength, hlength, hdigits, and_self, if_true, hweek,
    if_false, hdecimal, decide_true, twoDigits_pad hmonth, skipHyphen, List.head?_cons,
    List.drop_succ_cons, List.drop_zero, twoDigits_pad hday, Option.bind_eq_bind, Option.bind_some]

/-- **The round trip**: parsing the text of a `datetime` gives it back. -/
theorem fromisoformat_isoformat {t : Datetime} (h : t.Proper) (hkept : t.OffsetKept) :
    fromisoformat t.isoformat = some t := by
  obtain ⟨hyear, hmonth, hday, hhour, hminute, hsecond⟩ := h.bounds
  have hsep : "T".toList = ['T'] := rfl
  obtain ⟨htake, hdrop⟩ := span_zone (all_clockChar hhour hminute hsecond h.microsecond) t.utcoffset
  have hy := (pad_spec 4 (by decide) hyear).1
  have hm := (pad_spec 2 (by decide) hmonth).1
  have hd := (pad_spec 2 (by decide) hday).1
  have htext := toList_format t "T"
  rw [hsep, List.cons_append, List.nil_append] at htext
  generalize hrest : (hoursMinutes t.hour t.minute ++ secondsText t.second t.microsecond)
    ++ zoneText t.utcoffset = rest at htext htake hdrop
  have hlength : 10 < t.isoformat.toList.length := by
    unfold Datetime.isoformat
    rw [htext]
    simp only [List.length_append, List.length_cons, hy, hm, hd]
    omega
  have hseparator : separatorAt t.isoformat.toList = some 10 := by
    unfold Datetime.isoformat at hlength ⊢
    rw [htext] at hlength ⊢
    exact separatorAt_calendar hy (head_pad_ne hmonth _) (by omega)
  have hdate : isoDate 10 t.isoformat.toList = some (t.year, t.month, t.day) := by
    unfold Datetime.isoformat
    rw [htext, isoDate_format hyear hmonth hday]
  have htime : t.isoformat.toList.drop 11 = rest := by
    unfold Datetime.isoformat
    rw [htext, show 11 = 4 + 1 + (2 + 1 + (2 + 1)) from rfl, ← List.drop_drop, drop_append_cons hy,
      ← List.drop_drop, drop_append_cons hm, drop_append_cons hd]
  have hclock : isoTime rest = some ((t.hour, t.minute, t.second, t.microsecond), t.utcoffset) := by
    unfold isoTime
    rw [htake, hdrop, clock_seconds hhour hminute hsecond h.microsecond]
    simp only [offsetOfText_zoneText h.utcoffset hkept, Option.map_some]
  unfold fromisoformat
  simp only [show ¬ t.isoformat.toList.length < 7 by omega, if_false, hseparator, hdate, hlength,
    if_true, htime, hclock, Option.bind_eq_bind, Option.bind_some, h.valid]

/-- The characters of the text of a `datetime`. -/
def isoChar (c : Char) : Bool := clockChar c || c == '-' || c == '+' || c == 'T'

theorem all_isoChar {t : Datetime} (h : t.Proper) : t.isoformat.toList.all isoChar = true := by
  obtain ⟨hyear, hmonth, hday, hhour, hminute, hsecond⟩ := h.bounds
  have hiso : ∀ l : List Char, l.all clockChar = true → l.all isoChar = true := by
    intro l hl
    rw [List.all_eq_true] at hl ⊢
    intro c hc
    simp [isoChar, hl c hc]
  have hclock := all_clockChar hhour hminute hsecond h.microsecond
  have hdash : isoChar '-' = true := by decide
  have hsep : "T".toList.all isoChar = true := by decide
  have hzone : (zoneText t.utcoffset).all isoChar = true := by
    cases hoffset : t.utcoffset with
    | none => rfl
    | some o =>
      have hoffsetText := all_clockChar_offsetText (h.utcoffset o hoffset)
      have hsign : isoChar (signOf o) = true := by
        unfold signOf
        split <;> decide
      rw [zoneText, List.all_cons, hsign, hiso _ hoffsetText]
      rfl
  unfold Datetime.isoformat
  simp only [toList_format, List.all_append, List.all_cons, hdash, hsep, hzone, hiso _ hclock,
    hiso _ (all_clockChar_pad 4 (by decide) hyear),
    hiso _ (all_clockChar_pad 2 (by decide) hmonth),
    hiso _ (all_clockChar_pad 2 (by decide) hday), Bool.and_self]

/-- A `datetime` is written with a hyphen behind the year. -/
theorem dash_mem_format (t : Datetime) (sep : String) : '-' ∈ (t.format sep).toList := by
  rw [toList_format]
  simp

/-! ### The text of a UUID -/

theorem mem_uuidText {n : Nat} {c : Char} (h : c ∈ (uuidText n).toList) :
    c = '-' ∨ ∃ d < 16, c = Nat.digitChar d := by
  by_cases hdash : c = '-'
  · exact .inl hdash
  · have hmem : c ∈ (uuidText n).toList.filter (fun c => c ≠ '-') :=
      List.mem_filter.mpr ⟨h, decide_eq_true hdash⟩
    rw [filter_uuidText] at hmem
    obtain ⟨i, rfl⟩ := List.mem_ofFn.mp hmem
    exact .inr ⟨_, Nat.mod_lt _ (by omega), rfl⟩

/-- The digits of a UUID are letters and digits. -/
theorem plain_of_mem_uuidDigits {n : Nat} {c : Char} (h : c ∈ uuidDigits n) :
    isZone c = false ∧ c ≠ 'W' ∧ c ≠ ':' ∧ c ≠ '.' ∧ c ≠ ',' := by
  obtain ⟨i, rfl⟩ := List.mem_ofFn.mp h
  have hall : ∀ d < 16, isZone (Nat.digitChar d) = false ∧ Nat.digitChar d ≠ 'W'
      ∧ Nat.digitChar d ≠ ':' ∧ Nat.digitChar d ≠ '.' ∧ Nat.digitChar d ≠ ',' := by decide
  exact hall _ (Nat.mod_lt _ (by omega))

/-- An offset of four digits is not followed by a hyphen. -/
theorem clock_eq_none {a b c d e : Char} {rest : List Char}
    (h : c ≠ ':' ∧ c ≠ '.' ∧ c ≠ ',') : clock (a :: b :: c :: d :: '-' :: e :: rest) = none := by
  obtain ⟨hcolon, hpoint, hcomma⟩ := h
  have hdash : twoDigits ('-' :: e :: rest) = none := by
    simp [twoDigits, show Char.isDigit '-' = false by decide]
  have hlast : numbers (some false) 1 ('-' :: e :: rest) = none := by
    rw [numbers, hdash]
  have hmiddle : numbers (some false) 2 (c :: d :: '-' :: e :: rest) = none := by
    rw [numbers]
    by_cases hdigits : c.isDigit ∧ d.isDigit
    · simp [twoDigits, hdigits, hlast]
    · simp only [twoDigits, if_neg hdigits]
  unfold clock
  rw [numbers]
  by_cases hdigits : a.isDigit ∧ b.isDigit
  · simp [twoDigits, hdigits, hcolon, hpoint, hcomma, hmiddle]
  · simp only [twoDigits, if_neg hdigits, Option.map_none]

/-- **The text of a UUID is no `datetime`.**  Its first eight characters can be a date and the
    second group a time, but the third is no offset. -/
theorem fromisoformat_uuidText (n : Nat) : fromisoformat (uuidText n) = none := by
  have hlength : (uuidDigits n).length = 32 := List.length_ofFn
  have htext : (uuidText n).toList = (uuidDigits n).take 8 ++ '-' :: (((uuidDigits n).drop 8).take 4
      ++ '-' :: (((uuidDigits n).drop 12).take 4 ++ '-' :: (((uuidDigits n).drop 16).take 4
      ++ '-' :: ((uuidDigits n).drop 20).take 12))) := by
    show ((String.ofList (((uuidDigits n).drop 0).take 8) ++ "-"
      ++ String.ofList (((uuidDigits n).drop 8).take 4) ++ "-"
      ++ String.ofList (((uuidDigits n).drop 12).take 4) ++ "-"
      ++ String.ofList (((uuidDigits n).drop 16).take 4) ++ "-"
      ++ String.ofList (((uuidDigits n).drop 20).take 12)).toList) = _
    have hhyphen : "-".toList = ['-'] := rfl
    simp only [String.toList_append, String.toList_ofList, List.append_assoc, List.drop_zero,
      hhyphen, List.cons_append, List.nil_append]
  have hgroup : ∀ i, ((uuidDigits n).drop i).take 4 ⊆ uuidDigits n := fun i _ hc =>
    List.mem_of_mem_drop (List.mem_of_mem_take hc)
  have height : ((uuidDigits n).take 8).length = 8 := by
    rw [List.length_take, hlength]
    rfl
  have hplain : ∀ i, i < 8 → ∃ c ∈ uuidDigits n, (uuidText n).toList[i]? = some c := by
    intro i hi
    have hlt : i < (uuidDigits n).length := by omega
    refine ⟨(uuidDigits n)[i], List.getElem_mem hlt, ?_⟩
    rw [htext, List.getElem?_append_left (by omega), List.getElem?_take_of_lt hi,
      List.getElem?_eq_getElem hlt]
  have hseparator : separatorAt (uuidText n).toList = some 8 := by
    obtain ⟨c, hc, hfour⟩ := hplain 4 (by decide)
    obtain ⟨hzone, hweek, -⟩ := plain_of_mem_uuidDigits hc
    have hdash : c ≠ '-' := by
      rintro rfl
      exact absurd hzone (by decide)
    have hseven : (uuidText n).toList.length ≠ 7 := by
      rw [htext, List.length_append, height]
      omega
    unfold separatorAt
    rw [if_neg hseven, hfour, if_neg (by simpa using hdash), if_neg (by simpa using hweek)]
  -- the time is the second group, and the offset begins with the third one
  have htime : isoTime ((uuidText n).toList.drop 9) = none := by
    rw [htext, drop_append_cons height]
    have hsecond : ∀ c ∈ ((uuidDigits n).drop 8).take 4, (!isZone c) = true := by
      intro c hc
      rw [(plain_of_mem_uuidDigits (hgroup 8 hc)).1]
      rfl
    have hthird : (((uuidDigits n).drop 12).take 4).length = 4 := by
      rw [List.length_take, List.length_drop, hlength]
      rfl
    have hfourth : (((uuidDigits n).drop 16).take 4).length = 4 := by
      rw [List.length_take, List.length_drop, hlength]
      rfl
    unfold isoTime
    rw [List.takeWhile_append_of_pos hsecond, List.dropWhile_append_of_pos hsecond]
    match hgroup3 : ((uuidDigits n).drop 12).take 4, hthird with
    | [a, b, c, d], _ =>
      match hgroup4 : ((uuidDigits n).drop 16).take 4, hfourth with
      | e :: group, _ =>
        have hc : c ∈ uuidDigits n := hgroup 12 (by simp [hgroup3])
        obtain ⟨-, -, hnone⟩ := plain_of_mem_uuidDigits hc
        have hzone : isZone '-' = true := by decide
        have hsign : ¬ '-' = 'Z' := by decide
        split
        · rfl
        · simp [hzone, offsetOfText, clock_eq_none hnone]
  unfold fromisoformat
  have hlong : ¬ (uuidText n).toList.length < 7 := by
    rw [htext, List.length_append, height]
    omega
  have hmore : 8 < (uuidText n).toList.length := by
    rw [htext, List.length_append, height, List.length_cons]
    omega
  simp only [hlong, if_false, hseparator, hmore, if_true, htime, Option.bind_eq_bind,
    Option.bind_some, Option.bind_none]
  cases isoDate 8 (uuidText n).toList <;> rfl

end Oecophylla.Python
