import Mathlib.Algebra.GroupWithZero.Nat
import Mathlib.Algebra.Group.Int.Defs
import Mathlib.Data.List.Sort
import Mathlib.Data.Nat.Log
import Mathlib.Data.String.Basic

namespace Oecophylla

/-!
# JSON values, as the three languages of the repository see them

Events, metadata and Kafka envelopes are JSON.  `Json` is a parsed document; the languages
read its numbers differently (Python keeps integers exact, Rust keeps what fits `i64`/`u64`,
TypeScript has doubles only), so integers and floats are separate constructors here and every
language reads them in its own way:

* `Object.get` / `Object.merge` — lookup, and `{**defaults, **event}` with its key order;
* `quote`, `Decimal.render` — the texts of strings and of floats;
* `Double.ofInt` — the nearest double of an integer (ties to even), which is what
  `JSON.parse` makes of it;
* `asI64`, `asStr`, `asObject` — `serde_json::Value`'s accessors.
-/

/-- A decimal `±digits·10^exponent`: a finite double, written with the fewest digits that
    identify it. -/
structure Decimal where
  negative : Bool
  digits : Nat
  exponent : Int
  deriving DecidableEq, Repr

/-- A JSON document.  The fields of an object are in the order the text has them, and their
    names are distinct. -/
inductive Json where
  | null
  | bool (b : Bool)
  | int (z : Int)
  | float (d : Decimal)
  | str (s : String)
  | arr (items : List Json)
  | obj (fields : List (String × Json))
  deriving Repr, Inhabited

/-- The fields of a JSON object. -/
abbrev Object := List (String × Json)

namespace Object

/-- The value of a field. -/
def get (o : Object) (name : String) : Option Json := o.lookup name

/-- Set a field, in place when it exists and at the end otherwise. -/
def set {α : Type} (o : List (String × α)) (name : String) (v : α) : List (String × α) :=
  if (o.lookup name).isSome then o.map fun f => if f.1 = name then (name, v) else f
  else o ++ [(name, v)]

/-- `{**defaults, **event}`, `{ ...defaults, ...event }` and `defaults.extend(event)`. -/
def merge {α : Type} (defaults event : List (String × α)) : List (String × α) :=
  event.foldl (fun o f => set o f.1 f.2) defaults

@[simp] theorem get_nil (name : String) : get [] name = none := rfl

theorem get_cons (f : String × Json) (o : Object) (name : String) :
    get (f :: o) name = if name = f.1 then some f.2 else get o name := by
  obtain ⟨k, v⟩ := f
  by_cases h : name = k
  · simp [get, h]
  · have hbeq : (name == k) = false := by simpa using h
    simp [get, List.lookup_cons, hbeq, h]

theorem get_set_of_ne {o : Object} {name other : String} (v : Json) (h : other ≠ name) :
    get (set o name v) other = get o other := by
  have hmap : ∀ o : Object, get (o.map fun f => if f.1 = name then (name, v) else f) other
      = get o other := by
    intro o
    induction o with
    | nil => rfl
    | cons f o ih =>
      rw [List.map_cons, get_cons, get_cons, ih]
      by_cases hf : f.1 = name <;> simp [hf, h]
  unfold set
  split
  · exact hmap o
  · unfold get
    rw [List.lookup_append]
    have hbeq : (other == name) = false := by simpa using h
    simp [List.lookup_cons, hbeq]

theorem get_set_self (o : Object) (name : String) (v : Json) : get (set o name v) name = some v := by
  unfold set
  by_cases hsome : (o.lookup name).isSome
  · rw [if_pos hsome]
    induction o with
    | nil => simp at hsome
    | cons f o ih =>
      obtain ⟨k, w⟩ := f
      rw [List.map_cons, get_cons]
      by_cases hf : k = name
      · simp [hf]
      · have hbeq : (name == k) = false := by simpa using fun h : name = k => hf h.symm
        have hrest : (o.lookup name).isSome := by
          rwa [List.lookup_cons, hbeq] at hsome
        have hne : ¬ name = k := fun h => hf h.symm
        rw [if_neg hf, if_neg hne, ih hrest]
  · have hnone : o.lookup name = none := Option.not_isSome_iff_eq_none.mp hsome
    rw [if_neg hsome]
    unfold get
    rw [List.lookup_append, hnone]
    simp

section Map

variable {α β : Type} (g : α → β)

theorem lookup_map (o : List (String × α)) (name : String) :
    (o.map (Prod.map id g)).lookup name = (o.lookup name).map g := by
  induction o with
  | nil => rfl
  | cons f o ih =>
    obtain ⟨k, v⟩ := f
    simp only [List.map_cons, Prod.map_apply, List.lookup_cons, id_eq]
    cases name == k with
    | true => rfl
    | false => exact ih

theorem map_set (o : List (String × α)) (name : String) (v : α) :
    (set o name v).map (Prod.map id g) = set (o.map (Prod.map id g)) name (g v) := by
  unfold set
  rw [lookup_map, Option.isSome_map]
  by_cases h : (o.lookup name).isSome
  · rw [if_pos h, if_pos h, List.map_map, List.map_map]
    apply List.map_congr_left
    intro f _
    by_cases hf : f.1 = name <;> simp [hf]
  · rw [if_neg h, if_neg h]
    simp

/-- Merging and loading the values commute. -/
theorem map_merge (defaults event : List (String × α)) :
    (merge defaults event).map (Prod.map id g)
      = merge (defaults.map (Prod.map id g)) (event.map (Prod.map id g)) := by
  unfold merge
  induction event generalizing defaults with
  | nil => rfl
  | cons f event ih =>
    rw [List.map_cons, List.foldl_cons, List.foldl_cons, ih, map_set]
    rfl

end Map

end Object

/-! ### Texts -/

/-- One character of a JSON string literal. -/
def escapeChar (c : Char) : String :=
  if c = '\x22' then "\\\""
  else if c = '\\' then "\\\\"
  else if c = '\n' then "\\n"
  else if c = '\r' then "\\r"
  else if c = '\t' then "\\t"
  else if c = '\x08' then "\\b"
  else if c = '\x0c' then "\\f"
  else if c.toNat < 0x20 then
    "\\u00" ++ String.ofList [Nat.digitChar (c.toNat / 16), Nat.digitChar (c.toNat % 16)]
  else String.ofList [c]

/-- A JSON string literal; `json.dumps(ensure_ascii=False)`, `serde_json::to_string` and
    `JSON.stringify` write the same one. -/
def quote (s : String) : String :=
  "\"" ++ String.join (s.toList.map escapeChar) ++ "\""

/-- `n` zeros. -/
def zeros (n : Nat) : String := String.ofList (List.replicate n '0')

namespace Decimal

/-- The digits without sign and point. -/
def digitText (d : Decimal) : String := toString d.digits

/-- Where the point stands, counted from the first digit. -/
def point (d : Decimal) : Int := d.digitText.length + d.exponent

/-- The sign. -/
def signText (d : Decimal) : String := if d.negative then "-" else ""

/-- The text of a float: without an exponent when the point is in `(lo, hi]`. -/
def render (lo hi : Int) (exponentText : Int → String) (d : Decimal) : String :=
  let ds := d.digitText
  d.signText ++
    if d.digits = 0 then "0.0"
    else if lo < d.point ∧ d.point ≤ hi then
      if d.point ≤ 0 then "0." ++ zeros (-d.point).toNat ++ ds
      else if 0 ≤ d.exponent then ds ++ zeros d.exponent.toNat ++ ".0"
      else String.ofList (ds.toList.take d.point.toNat) ++ "."
        ++ String.ofList (ds.toList.drop d.point.toNat)
    else
      String.ofList (ds.toList.take 1)
        ++ (if ds.length = 1 then "" else "." ++ String.ofList (ds.toList.drop 1))
        ++ "e" ++ exponentText (d.point - 1)

/-- The integer a decimal with a non-negative exponent is. -/
def toInt (d : Decimal) : Int :=
  let n : Int := d.digits * 10 ^ d.exponent.toNat
  if d.negative then -n else n

/-- The integer part, towards zero. -/
def truncate (d : Decimal) : Int :=
  if 0 ≤ d.exponent then d.toInt
  else
    let n : Int := d.digits / 10 ^ (-d.exponent).toNat
    if d.negative then -n else n

/-- Whether there is nothing behind the point. -/
def isIntegral (d : Decimal) : Bool :=
  decide (0 ≤ d.exponent) || d.digits % 10 ^ (-d.exponent).toNat == 0

end Decimal

/-! ### Doubles -/

/-- A double, as far as programs that compare and print it can tell: an integral value, a
    fraction (by its shortest decimal), the negative zero or an infinity. -/
inductive Double where
  | integral (z : Int)
  | fraction (d : Decimal)
  | negativeZero
  | infinite (negative : Bool)
  deriving DecidableEq, Repr

namespace Double

/-- `n` rounded to 53 significant bits, ties to even. -/
def roundNat (n : Nat) : Nat :=
  if n < 2 ^ 53 then n
  else
    let unit := 2 ^ (Nat.log2 n - 52)
    let q := n / unit
    let r := n % unit
    if unit < 2 * r ∨ (unit = 2 * r ∧ q % 2 = 1) then (q + 1) * unit else q * unit

/-- The double nearest to an integer. -/
def ofInt (z : Int) : Double :=
  let m := roundNat z.natAbs
  if 1024 ≤ Nat.log2 m then .infinite (decide (z < 0))
  else .integral (if z < 0 then -m else m)

/-- The double a decimal denotes. -/
def ofDecimal (d : Decimal) : Double :=
  if d.digits = 0 then (if d.negative then .negativeZero else .integral 0)
  else if d.isIntegral then ofInt d.truncate
  else .fraction d

/-- The text of a double.  Integral values are written out in full, where a serializer writes
    the shortest digits: the texts are equal exactly when the doubles are. -/
def text (whole : String) : Double → String
  | .integral z => toString z ++ whole
  | .fraction d => d.render (-5) 16 toString
  | .negativeZero => "-0" ++ whole
  | .infinite _ => "null"

/-- Whether a double is at least an integer (`x >= threshold`). -/
def atLeast (threshold : Int) : Double → Bool
  | .integral z => decide (threshold ≤ z)
  | .fraction d => decide (threshold ≤ if d.negative then d.truncate - 1 else d.truncate)
  | .negativeZero => decide (threshold ≤ 0)
  | .infinite negative => !negative

/-- Rounding keeps a number within a factor of two. -/
theorem roundNat_bounds {n : Nat} (h : 0 < n) : 0 < roundNat n ∧ roundNat n ≤ 2 * n := by
  unfold roundNat
  by_cases hsmall : n < 2 ^ 53
  · rw [if_pos hsmall]
    omega
  · rw [if_neg hsmall]
    have hunit : 2 ^ (Nat.log2 n - 52) ≤ n := by
      have hlog : 2 ^ Nat.log2 n ≤ n := Nat.log2_self_le (by omega)
      exact le_trans (Nat.pow_le_pow_right (by omega) (by omega)) hlog
    have hpos : 0 < 2 ^ (Nat.log2 n - 52) := Nat.pow_pos (by omega)
    generalize 2 ^ (Nat.log2 n - 52) = unit at hunit hpos ⊢
    have hq : 0 < n / unit := Nat.div_pos hunit hpos
    have hmul : n / unit * unit ≤ n := Nat.div_mul_le_self n unit
    have hmul' : 0 < n / unit * unit := Nat.mul_pos hq hpos
    -- rounding up adds one unit, which is at most `n`
    have hup : (n / unit + 1) * unit = n / unit * unit + unit := Nat.succ_mul _ _
    simp only [hup]
    split <;> omega

/-- A positive `i64` is a positive integral double. -/
theorem ofInt_of_pos {z : Int} (hpos : 0 < z) (hlt : z < 2 ^ 63) :
    0 < roundNat z.natAbs ∧ ofInt z = .integral (roundNat z.natAbs) := by
  obtain ⟨hround, hle⟩ := roundNat_bounds (n := z.natAbs) (by omega)
  refine ⟨hround, ?_⟩
  have hlog : Nat.log2 (roundNat z.natAbs) < 64 := (Nat.log2_lt (by omega)).mpr (by omega)
  have hsmall : ¬ 1024 ≤ Nat.log2 (roundNat z.natAbs) := by omega
  have hneg : ¬ z < 0 := by omega
  simp only [ofInt, if_neg hsmall, if_neg hneg]

end Double

/-! ### `serde_json::Value`'s accessors -/

namespace Json

/-- `Value::as_i64`: integers that fit 64 bits; a float is none, also an integral one. -/
def asI64 : Json → Option Int
  | .int z => if -2 ^ 63 ≤ z ∧ z < 2 ^ 63 then some z else none
  | _ => none

/-- `Value::as_str`. -/
def asStr : Json → Option String
  | .str s => some s
  | _ => none

/-- `Value::as_object`. -/
def asObject : Json → Option Object
  | .obj fields => some fields
  | _ => none

theorem asI64_eq_some {v : Json} {z : Int} (h : v.asI64 = some z) : v = .int z := by
  cases v with
  | int y =>
    simp only [asI64] at h
    split at h
    · rw [Option.some.injEq] at h
      rw [h]
    · simp at h
  | _ => simp [asI64] at h

end Json

end Oecophylla
