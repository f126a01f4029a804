import Oecophylla.Python.Value
import Mathlib.Algebra.Order.Floor.Defs
import Mathlib.Data.Int.Log
import Mathlib.Data.Rat.Floor

namespace Oecophylla.Python

/-!
# Aware datetimes, equality and doubles

* `Timestamp` — a `datetime` with a timezone; `<`, `<=` and `==` compare the instants;
* `Timestamp.plus` — adding a `timedelta`;
* `eq` — `==` on values;
* `roundDouble`, `roundHalfEven` — the result of an operation on doubles, and `round(x)`.
-/

/-! ### Timestamps -/

/-- A `datetime` that includes a timezone. -/
structure Timestamp where
  datetime : Datetime
  aware : datetime.utcoffset.isSome = true
  deriving Repr

/-- Microseconds since `datetime.min` on the clock of the timezone. -/
def Datetime.localMicros (t : Datetime) : Int :=
  let days : Int := daysBefore t.year t.month + (t.day - 1 : Nat)
  let seconds : Int := (t.hour * 60 + t.minute) * 60 + t.second
  days * dayMicros + seconds * 1000000 + t.microsecond

/-- Microseconds since `datetime.min` in UTC. -/
def Datetime.micros (t : Datetime) : Int := t.localMicros - t.utcoffset.getD 0

namespace Timestamp

/-- The instant. -/
def micros (t : Timestamp) : Int := t.datetime.micros

instance : LT Timestamp := ⟨fun a b => a.micros < b.micros⟩

instance : LE Timestamp := ⟨fun a b => a.micros ≤ b.micros⟩

instance : BEq Timestamp := ⟨fun a b => a.micros == b.micros⟩

instance (a b : Timestamp) : Decidable (a < b) := inferInstanceAs (Decidable (_ < _))

instance (a b : Timestamp) : Decidable (a ≤ b) := inferInstanceAs (Decidable (_ ≤ _))

theorem lt_iff {a b : Timestamp} : a < b ↔ a.micros < b.micros := Iff.rfl

theorem le_iff {a b : Timestamp} : a ≤ b ↔ a.micros ≤ b.micros := Iff.rfl

/-- `t + timedelta(microseconds=delta)`, as an instant; `none` when the clock leaves the years 1 to
    9999. -/
def plus (t : Timestamp) (delta : Int) : Option Int :=
  let clock := t.datetime.localMicros + delta
  if 0 ≤ clock ∧ clock < daysBefore 10000 1 * dayMicros then some (t.micros + delta) else none

theorem plus_eq_some {t : Timestamp} {delta u : Int} (h : t.plus delta = some u) :
    u = t.micros + delta := by
  unfold plus at h
  simp only [Option.ite_none_right_eq_some, Option.some.injEq] at h
  exact h.2.symm

end Timestamp

/-! ### Equality -/

/-- The number that a value is, when it is one. -/
def number : Value → Option Double
  | .bool b => some (.integral (if b then 1 else 0))
  | .int z => some (.integral z)
  | .float d =>
    match Double.ofDecimal d with
    | .negativeZero => some (.integral 0)
    | x => some x
  | _ => none

mutual
/-- `v == w`. -/
def eq : Value → Value → Bool
  | .none, .none => true
  | .str a, .str b => a == b
  | .list a, .list b => eqItems a b
  | .dict a, .dict b => a.length == b.length && eqFields a b
  | .datetime a, .datetime b =>
    if a.utcoffset.isSome && b.utcoffset.isSome then a.micros == b.micros else a == b
  | .uuid a, .uuid b => a == b
  | v, w =>
    match number v, number w with
    | some a, some b => a == b
    | _, _ => false

/-- `==` on lists. -/
def eqItems : List Value → List Value → Bool
  | [], [] => true
  | v :: vs, w :: ws => eq v w && eqItems vs ws
  | _, _ => false

/-- Every field of a dictionary has its value in another. -/
def eqFields : Dict → Dict → Bool
  | [], _ => true
  | (k, v) :: fs, d =>
    (match Dict.get d k with
      | some w => eq v w
      | none => false) && eqFields fs d
end

/-! ### Doubles -/

/-- `round(x)`: the nearest integer, ties to even. -/
def roundHalfEven (q : ℚ) : Int :=
  let n := ⌊q⌋
  if q - n < 1 / 2 then n
  else if 1 / 2 < q - n then n + 1
  else if n % 2 = 0 then n
  else n + 1

/-- The double nearest to a rational: 53 significant bits, ties to even. -/
def roundDouble (q : ℚ) : ℚ :=
  if q = 0 then 0
  else
    let ulp : ℚ := 2 ^ (Int.log 2 |q| - 52)
    roundHalfEven (q / ulp) * ulp

end Oecophylla.Python
