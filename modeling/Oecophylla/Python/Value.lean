import Oecophylla.Json

namespace Oecophylla.Python

/-!
# Python values and the built-ins the services call on them

The label resolver and the feature worker get dictionaries from `json.loads`, and rows whose
timestamps and ids are `datetime` and `UUID` objects.  `Value` has both; `ofJson` is
`json.loads`.  The built-ins follow CPython 3.13:

* `str`, `int`, `truthy` — `str(x)`, `int(x)` (`none` when it raises), `bool(x)`;
* `uuidOfText` — the constructor `UUID(text)`;
* `Datetime.instant` — `astimezone(timezone.utc)`, as microseconds since `datetime.min`.
-/

/-- A `datetime`; `utcoffset` is in microseconds, `none` for a naive one. -/
structure Datetime where
  year : Nat
  month : Nat
  day : Nat
  hour : Nat
  minute : Nat
  second : Nat
  microsecond : Nat
  utcoffset : Option Int
  deriving DecidableEq, Repr

/-- A Python value. -/
inductive Value where
  | none
  | bool (b : Bool)
  | int (z : Int)
  | float (d : Decimal)
  | str (s : String)
  | list (items : List Value)
  | dict (fields : List (String × Value))
  | datetime (t : Datetime)
  | uuid (n : Nat)
  deriving Repr, Inhabited

/-- The items of a `dict`, in insertion order. -/
abbrev Dict := List (String × Value)

/-- `d[name]` when `name in d`. -/
def Dict.get (d : Dict) (name : String) : Option Value := d.lookup name

mutual
/-- `json.loads`. -/
def ofJson : Json → Value
  | .null => .none
  | .bool b => .bool b
  | .int z => .int z
  | .float d => .float d
  | .str s => .str s
  | .arr items => .list (ofJsonItems items)
  | .obj fields => .dict (ofJsonFields fields)

/-- `json.loads` on the items of an array. -/
def ofJsonItems : List Json → List Value
  | [] => []
  | v :: vs => ofJson v :: ofJsonItems vs

/-- `json.loads` on the fields of an object. -/
def ofJsonFields : List (String × Json) → Dict
  | [] => []
  | (k, v) :: fs => (k, ofJson v) :: ofJsonFields fs
end

theorem ofJsonFields_eq_map (o : Object) : ofJsonFields o = o.map (Prod.map id ofJson) := by
  induction o with
  | nil => rfl
  | cons f o ih => rw [ofJsonFields, List.map_cons, ih]; rfl

/-- Loading an object keeps its names and loads its values. -/
theorem get_ofJsonFields (o : Object) (name : String) :
    Dict.get (ofJsonFields o) name = (o.get name).map ofJson := by
  rw [ofJsonFields_eq_map]
  exact Object.lookup_map ofJson o name

/-- Merging before loading is merging after it. -/
theorem ofJsonFields_merge (defaults event : Object) :
    ofJsonFields (Object.merge defaults event)
      = Object.merge (ofJsonFields defaults) (ofJsonFields event) := by
  simp only [ofJsonFields_eq_map, Object.map_merge]

/-! ### Texts -/

/-- Left-pad a number with zeros. -/
def pad (width n : Nat) : String := zeros (width - (toString n).length) ++ toString n

/-- `datetime.isoformat(sep)`. -/
def Datetime.format (t : Datetime) (sep : String) : String :=
  pad 4 t.year ++ "-" ++ pad 2 t.month ++ "-" ++ pad 2 t.day ++ sep
    ++ pad 2 t.hour ++ ":" ++ pad 2 t.minute ++ ":" ++ pad 2 t.second
    ++ (if t.microsecond = 0 then "" else "." ++ pad 6 t.microsecond)
    ++ match t.utcoffset with
      | Option.none => ""
      | some o =>
        let s := o.natAbs / 1000000
        (if o < 0 then "-" else "+") ++ pad 2 (s / 3600) ++ ":" ++ pad 2 (s / 60 % 60)
          ++ (if o.natAbs % 60000000 = 0 then "" else ":" ++ pad 2 (s % 60))
          ++ (if o.natAbs % 1000000 = 0 then "" else "." ++ pad 6 (o.natAbs % 1000000))

/-- `datetime.isoformat()`. -/
def Datetime.isoformat (t : Datetime) : String := t.format "T"

/-- `str(uuid)`: 32 hexadecimal digits in groups of 8-4-4-4-12. -/
def uuidText (n : Nat) : String :=
  let ds := List.ofFn fun i : Fin 32 => Nat.digitChar (n / 16 ^ (31 - i.val) % 16)
  let group (a b : Nat) : String := String.ofList ((ds.drop a).take b)
  group 0 8 ++ "-" ++ group 8 4 ++ "-" ++ group 12 4 ++ "-" ++ group 16 4 ++ "-" ++ group 20 12

/-- `repr(float)`. -/
def floatRepr (d : Decimal) : String :=
  d.render (-4) 16 fun e => (if e < 0 then "-" else "+") ++ pad 2 e.natAbs

mutual
/-- `repr(x)`, without the escapes inside string literals (such texts are only compared with
    event types and identifiers, which have no quotes). -/
def repr : Value → String
  | .none => "None"
  | .bool b => if b then "True" else "False"
  | .int z => toString z
  | .float d => floatRepr d
  | .str s => "'" ++ s ++ "'"
  | .list items => "[" ++ reprItems items ++ "]"
  | .dict fields => "\x7b" ++ reprFields fields ++ "\x7d"
  | .datetime t => "datetime.datetime(" ++ t.isoformat ++ ")"
  | .uuid n => "UUID('" ++ uuidText n ++ "')"

/-- The items of a list. -/
def reprItems : List Value → String
  | [] => ""
  | [v] => repr v
  | v :: vs => repr v ++ ", " ++ reprItems vs

/-- The items of a dictionary. -/
def reprFields : List (String × Value) → String
  | [] => ""
  | [(k, v)] => "'" ++ k ++ "': " ++ repr v
  | (k, v) :: fs => "'" ++ k ++ "': " ++ repr v ++ ", " ++ reprFields fs
end

/-- `str(x)`. -/
def str : Value → String
  | .str s => s
  | .datetime t => t.format " "
  | .uuid n => uuidText n
  | v => repr v

/-- `bool(x)`. -/
def truthy : Value → Bool
  | .none => false
  | .bool b => b
  | .int z => z != 0
  | .float d => d.digits != 0
  | .str s => s != ""
  | .list items => !items.isEmpty
  | .dict fields => !fields.isEmpty
  | .datetime _ => true
  | .uuid _ => true

/-! ### Integers from text -/

/-- The characters that `str.isspace` accepts. -/
def spaces : List Nat :=
  [0x9, 0xa, 0xb, 0xc, 0xd, 0x1c, 0x1d, 0x1e, 0x1f, 0x20, 0x85, 0xa0, 0x1680, 0x2000, 0x2001,
   0x2002, 0x2003, 0x2004, 0x2005, 0x2006, 0x2007, 0x2008, 0x2009, 0x200a, 0x2028, 0x2029,
   0x202f, 0x205f, 0x3000]

/-- The zeros of the decimal digit blocks (Unicode category `Nd`). -/
def decimalZeros : List Nat :=
  [0x30, 0x660, 0x6f0, 0x7c0, 0x966, 0x9e6, 0xa66, 0xae6, 0xb66, 0xbe6, 0xc66, 0xce6, 0xd66,
   0xde6, 0xe50, 0xed0, 0xf20, 0x1040, 0x1090, 0x17e0, 0x1810, 0x1946, 0x19d0, 0x1a80, 0x1a90,
   0x1b50, 0x1bb0, 0x1c40, 0x1c50, 0xa620, 0xa8d0, 0xa900, 0xa9d0, 0xa9f0, 0xaa50, 0xabf0,
   0xff10, 0x104a0, 0x10d30, 0x11066, 0x110f0, 0x11136, 0x111d0, 0x112f0, 0x11450, 0x114d0,
   0x11650, 0x116c0, 0x11730, 0x118e0, 0x11950, 0x11c50, 0x11d50, 0x11da0, 0x11f50, 0x16a60,
   0x16ac0, 0x16b50, 0x1d7ce, 0x1d7d8, 0x1d7e2, 0x1d7ec, 0x1d7f6, 0x1e140, 0x1e2f0, 0x1e4f0,
   0x1e950, 0x1fbf0]

/-- The value of a digit in base 10 or 16. -/
def digitValue (base : Nat) (c : Char) : Option Nat :=
  match decimalZeros.find? fun z => decide (z ≤ c.toNat ∧ c.toNat < z + 10) with
  | some z => some (c.toNat - z)
  | Option.none =>
    if base = 16 ∧ 'a' ≤ c ∧ c ≤ 'f' then some (c.toNat - 'a'.toNat + 10)
    else if base = 16 ∧ 'A' ≤ c ∧ c ≤ 'F' then some (c.toNat - 'A'.toNat + 10)
    else Option.none

/-- Digits with single underscores between them; `last` says that a digit was just read. -/
def readDigits (base : Nat) : (last : Bool) → (value : Nat) → List Char → Option Nat
  | last, value, [] => if last then some value else Option.none
  | last, value, c :: cs =>
    if c = '_' then (if last then readDigits base false value cs else Option.none)
    else match digitValue base c with
      | some d => readDigits base true (value * base + d) cs
      | Option.none => Option.none

/-- `s.strip()`. -/
def strip (cs : List Char) : List Char :=
  let isSpace := fun c : Char => spaces.contains c.toNat
  ((cs.dropWhile isSpace).reverse.dropWhile isSpace).reverse

/-- `int(text, base)`: decimal texts of more than 4300 digits are refused. -/
def intOfText (base : Nat) (s : String) : Option Int :=
  let cs := strip s.toList
  let negative := cs.head? = some '-'
  let body := if cs.head? = some '-' ∨ cs.head? = some '+' then cs.drop 1 else cs
  let body := if base = 16 ∧ (body.take 2 = ['0', 'x'] ∨ body.take 2 = ['0', 'X'])
    then (if body[2]? = some '_' then body.drop 3 else body.drop 2) else body
  if base = 10 ∧ 4300 < (body.filter fun c => c ≠ '_').length then Option.none
  else (readDigits base false 0 body).map fun n => if negative then -(n : Int) else n

/-- `int(x)`; `none` when it raises `ValueError`, `TypeError` or `OverflowError`. -/
def int : Value → Option Int
  | .bool b => some (if b then 1 else 0)
  | .int z => some z
  | .float d =>
    match Double.ofDecimal d with
    | .integral z => some z
    | .fraction d => some d.truncate
    | .negativeZero => some 0
    | .infinite _ => Option.none
  | .str s => intOfText 10 s
  | _ => Option.none

/-- Remove every occurrence of a word, from left to right (`s.replace(word, '')`). -/
def removeAll (word : List Char) : (fuel : Nat) → List Char → List Char
  | 0, cs => cs
  | _ + 1, [] => []
  | fuel + 1, c :: cs =>
    if word.isPrefixOf (c :: cs) then removeAll word fuel ((c :: cs).drop word.length)
    else c :: removeAll word fuel cs

/-- `UUID(text)`: `urn:`, `uuid:`, braces and hyphens are dropped, and the rest must be 32
    characters that `int(…, 16)` reads as a 128-bit number. -/
def uuidOfText (s : String) : Option Nat :=
  let n := s.length
  let cs := removeAll ['u', 'u', 'i', 'd', ':'] n (removeAll ['u', 'r', 'n', ':'] n s.toList)
  let brace := fun c : Char => c = '\x7b' || c = '\x7d'
  let cs := ((cs.dropWhile brace).reverse.dropWhile brace).reverse.filter fun c => c ≠ '-'
  if cs.length ≠ 32 then Option.none
  else match intOfText 16 (String.ofList cs) with
    | some z => if 0 ≤ z ∧ z < 2 ^ 128 then some z.toNat else Option.none
    | Option.none => Option.none

/-! ### The calendar -/

/-- Days in a month of the Gregorian calendar. -/
def daysInMonth (year month : Nat) : Nat :=
  if month = 2 then (if year % 4 = 0 ∧ (year % 100 ≠ 0 ∨ year % 400 = 0) then 29 else 28)
  else if month = 4 ∨ month = 6 ∨ month = 9 ∨ month = 11 then 30 else 31

/-- Days from `0001-01-01` to the first day of a month. -/
def daysBefore (year month : Nat) : Nat :=
  (year - 1) * 365 + (year - 1) / 4 - (year - 1) / 100 + (year - 1) / 400
    + ((List.range (month - 1)).map fun m => daysInMonth year (m + 1)).sum

/-- The ranges the constructor `datetime(…)` checks. -/
def Datetime.valid (t : Datetime) : Bool :=
  decide (1 ≤ t.year ∧ t.year ≤ 9999 ∧ 1 ≤ t.month ∧ t.month ≤ 12 ∧ 1 ≤ t.day
    ∧ t.day ≤ daysInMonth t.year t.month ∧ t.hour < 24 ∧ t.minute < 60 ∧ t.second < 60)

/-- Microseconds in a day. -/
def dayMicros : Int := 86400000000

/-- `t.replace(tzinfo=utc)` when naive, then `astimezone(utc)`: microseconds since
    `datetime.min`; `none` when the result is outside the years 1 to 9999. -/
def Datetime.instant (t : Datetime) : Option Int :=
  let days : Int := daysBefore t.year t.month + (t.day - 1 : Nat)
  let seconds : Int := (t.hour * 60 + t.minute) * 60 + t.second
  let micros := days * dayMicros + seconds * 1000000 + t.microsecond - t.utcoffset.getD 0
  if 0 ≤ micros ∧ micros < daysBefore 10000 1 * dayMicros then some micros else Option.none

end Oecophylla.Python
