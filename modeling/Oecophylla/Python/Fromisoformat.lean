import Oecophylla.Python.Value

namespace Oecophylla.Python

/-!
# `datetime.fromisoformat`

The parser of CPython's C implementation.  It reads more than the texts of `isoformat`: the dates
may be those of the ISO week calendar, hyphens and colons may be left out, and any character
separates the date from the time.  It is also looser than the standard: in front of an offset one
more character is accepted behind the digits of the time, and anything behind the sixth digit of a
fraction; a number in front of which the colons are missing may be followed by a fraction without
a point.

* `separatorAt` — where the date ends;
* `isoDate` — calendar dates and week dates;
* `clock` — `HH[:MM[:SS[.f…]]]`, with or without its colons;
* `offsetOfText`, `isoTime` — the time and the offset behind it;
* `fromisoformat` — the whole text, and the ranges that the constructor checks.

The C code reads bytes.  Where it can succeed, a character of several bytes is the separator or
stands behind the sixth digit of a fraction; `clock` refuses it everywhere else.
-/

/-! ### Digits -/

/-- The value of a text of digits. -/
def decimal (cs : List Char) : Nat := cs.foldl (fun n c => n * 10 + (c.toNat - 48)) 0

/-- Two ASCII digits. -/
def twoDigits : List Char → Option (Nat × List Char)
  | a :: b :: rest => if a.isDigit ∧ b.isDigit then some (decimal [a, b], rest) else none
  | _ => none

/-! ### The date -/

/-- `_find_isoformat_datetime_separator`: the number of characters of the date. -/
def separatorAt (cs : List Char) : Option Nat :=
  if cs.length = 7 then some 7
  else if cs[4]? = some '-' then
    if cs[5]? = some 'W' then
      if cs[8]? = some '-' then
        if cs.length = 9 then none
        -- `YYYY-Www-##` is a week and a time rather than a day with a digit behind it
        else if cs[10]?.any Char.isDigit then some 8 else some 10
      else some 8
    else some 10
  else if cs[4]? = some 'W' then
    -- the digits of a time come in pairs, so their number tells `YYYYWww` from `YYYYWwwd`
    let pos := 7 + ((cs.drop 7).takeWhile Char.isDigit).length
    if pos < 9 then some pos else if pos % 2 = 0 then some 7 else some 8
  else some 8

/-- `ord_to_ymd`, for the days since `0001-01-01`. -/
def dateOfDays (days : Nat) : Nat × Nat × Nat :=
  let n := days % 146097
  let year := days / 146097 * 400 + min (n / 36524) 3 * 100
    + (n - min (n / 36524) 3 * 36524) / 1461 * 4
    + min ((n - min (n / 36524) 3 * 36524) % 1461 / 365) 3 + 1
  let month := ((List.range 12).filter fun m => daysBefore year (m + 1) ≤ days).length
  (year, month, days - daysBefore year month + 1)

/-- `iso_to_ymd`. -/
def isoToYmd (year week day : Nat) : Option (Nat × Nat × Nat) :=
  let first := daysBefore year 1
  -- `0001-01-01` is a Monday
  let weekday := first % 7
  let weeks := if weekday = 3 ∨ weekday = 2 ∧ daysInMonth year 2 = 29 then 53 else 52
  if 1 ≤ year ∧ 1 ≤ week ∧ week ≤ weeks ∧ 1 ≤ day ∧ day ≤ 7 then
    let monday := first + (if 3 < weekday then 7 else 0) - weekday
    some (dateOfDays (monday + (week - 1) * 7 + (day - 1)))
  else none

/-- `if (uses_separator && *(p++) != '-')`. -/
def skipHyphen (separated : Bool) (cs : List Char) : Option (List Char) :=
  if separated then (if cs.head? = some '-' then some (cs.drop 1) else none) else some cs

/-- `parse_isoformat_date` on a text whose date has `length` characters. -/
def isoDate (length : Nat) (cs : List Char) : Option (Nat × Nat × Nat) :=
  let year := decimal (cs.take 4)
  let separated := cs[4]? = some '-'
  if (cs.take 4).length = 4 ∧ (cs.take 4).all Char.isDigit then
    let rest := if separated then cs.drop 5 else cs.drop 4
    if rest.head? = some 'W' then do
      let (week, rest) ← twoDigits (rest.drop 1)
      if (if separated then 8 else 7) < length then
        let rest ← skipHyphen separated rest
        match rest with
        | d :: _ => if d.isDigit then isoToYmd year week (decimal [d]) else none
        | [] => none
      else isoToYmd year week 1
    else do
      let (month, rest) ← twoDigits rest
      let rest ← skipHyphen separated rest
      let (day, _) ← twoDigits rest
      some (year, month, day)
  else none

/-! ### The time -/

/-- `*p != '\0'` at the end of what was read. -/
def goesOn : List Char → Bool
  | [] => false
  | c :: _ => c ≠ '\x00'

/-- The digits of a fraction: six count, further ones are dropped.  The flag says that the text goes
    on behind them. -/
def fraction (cs : List Char) : Option (Nat × Bool) :=
  if cs ≠ [] ∧ (cs.take 6).all Char.isDigit then
    some (decimal ((cs.take 6 ++ List.replicate 6 '0').take 6),
      goesOn ((cs.drop 6).dropWhile Char.isDigit))
  else none

/-- The loop of `parse_hh_mm_ss_ff`: up to `n` more numbers of two digits, then a fraction.
    `colons` says whether the numbers are separated, once the first of them was read. -/
def numbers (colons : Option Bool) : (n : Nat) → List Char → Option (List Nat × Nat × Bool)
  | 0, cs => (fraction cs).map fun (f, more) => ([], f, more)
  | n + 1, cs =>
    match twoDigits cs with
    | none => none
    | some (x, []) => some ([x], 0, false)
    | some (x, c :: rest) =>
      -- one more character, of one byte, ends the loop
      if rest = [] ∧ c.toNat < 128 then some ([x], 0, c ≠ '\x00')
      else
        let separated := colons.getD (c = ':')
        let tail :=
          if separated ∧ c = ':' then numbers (some separated) n rest
          else if c = '.' ∨ c = ',' then (fraction rest).map fun (f, more) => ([], f, more)
          else if separated then none
          else numbers (some separated) n (c :: rest)
        tail.map fun (xs, f, more) => (x :: xs, f, more)

/-- `parse_hh_mm_ss_ff`: hours, minutes, seconds, microseconds, and whether the text goes on. -/
def clock (cs : List Char) : Option ((Nat × Nat × Nat × Nat) × Bool) :=
  (numbers none 3 cs).map fun (xs, f, more) =>
    ((xs.getD 0 0, xs.getD 1 0, xs.getD 2 0, f), more)

/-- What stands behind the time: no offset, `Z` or a sign and an offset.  `more` says that the time
    did not end where it should, which only matters when no offset follows. -/
def offsetOfText (more : Bool) : List Char → Option (Option Int)
  | [] => if more then none else some none
  | sign :: cs =>
    if sign = 'Z' then (if goesOn cs then none else some (some 0))
    else match clock cs with
      | some ((h, m, s, f), false) =>
        let seconds := (h * 60 + m) * 60 + s
        -- an offset of less than a second is taken for UTC
        let o : Int := if seconds = 0 then 0 else (seconds * 1000000 + f : Nat)
        if o < dayMicros then some (some (if sign = '-' then -o else o)) else none
      | _ => none

/-- Where the offset begins. -/
def isZone (c : Char) : Bool := c = '+' || c = '-' || c = 'Z'

/-- `parse_isoformat_time`. -/
def isoTime (cs : List Char) : Option ((Nat × Nat × Nat × Nat) × Option Int) :=
  match clock (cs.takeWhile fun c => !isZone c) with
  | none => none
  | some (time, more) =>
    (offsetOfText more (cs.dropWhile fun c => !isZone c)).map fun offset => (time, offset)

/-- `datetime.fromisoformat(text)`; `none` when it raises `ValueError`. -/
def fromisoformat (s : String) : Option Datetime :=
  let cs := s.toList
  if cs.length < 7 then none
  else do
    let length ← separatorAt cs
    let (year, month, day) ← isoDate length cs
    let ((h, m, s, f), offset) ←
      if length < cs.length then isoTime (cs.drop (length + 1)) else some ((0, 0, 0, 0), none)
    let t : Datetime := ⟨year, month, day, h, m, s, f, offset⟩
    if t.valid then some t else none

-- a basic form whose instant lies before the year 1; a week date; an offset without its colon; a
-- character too much in front of an offset, and at the end
example : (fromisoformat "00010101T000000+1400").map Datetime.instant = some none := by
  decide +kernel

example : fromisoformat "2020-W53-7T09" = some ⟨2021, 1, 3, 9, 0, 0, 0, none⟩ := by decide +kernel

example : fromisoformat "2020-01-01T12:30.+0000" = some ⟨2020, 1, 1, 12, 30, 0, 0, some 0⟩ := by
  decide +kernel

example : fromisoformat "2020-01-01T12:30:45." = none := by decide +kernel

end Oecophylla.Python
