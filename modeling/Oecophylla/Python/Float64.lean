import Oecophylla.Python.Rounding

namespace Oecophylla.Python

/-!
# All doubles

A double that may be infinite or not a number, as in a setting.  An operation on finite doubles is
`nearestDouble`, so that overflow is left out here as well; the two zeros are one.

* `Float64`, `add`, `mul`, `div`, `abs` — the values and the operations;
* `lt` — `x < y`, which is false as soon as one of them is not a number;
* `minOf` — `min(x, y)`, which is `x` unless `y < x`;
* `roundTo` — `round(x, n)`;
* `Nonneg` — what is not below zero: nothing, for what is not a number.
-/

/-- A `float`. -/
inductive Float64 where
  | finite (q : ℚ)
  | infinite (negative : Bool)
  | nan
  deriving DecidableEq

namespace Float64

/-- `x < y`. -/
def lt : Float64 → Float64 → Prop
  | .nan, _ => False
  | _, .nan => False
  | .finite a, .finite b => a < b
  | .infinite a, .infinite b => a = true ∧ b = false
  | .infinite a, .finite _ => a = true
  | .finite _, .infinite b => b = false

instance : LT Float64 := ⟨lt⟩

instance (x y : Float64) : Decidable (x < y) := by
  show Decidable (lt x y)
  cases x <;> cases y <;> (unfold lt; infer_instance)

/-- `x + y`. -/
def add : Float64 → Float64 → Float64
  | .finite a, .finite b => .finite (nearestDouble (a + b))
  | .nan, _ => .nan
  | _, .nan => .nan
  | .infinite a, .infinite b => if a = b then .infinite a else .nan
  | .infinite a, .finite _ => .infinite a
  | .finite _, .infinite b => .infinite b

/-- `abs(x)`. -/
def abs : Float64 → Float64
  | .finite a => .finite |a|
  | .infinite _ => .infinite false
  | .nan => .nan

/-- `x * y`, for a finite `x` other than zero. -/
def scale (a : ℚ) : Float64 → Float64
  | .finite b => .finite (nearestDouble (a * b))
  | .infinite b => .infinite (if 0 < a then b else !b)
  | .nan => .nan

/-- `x / y`, for a positive `y`. -/
def div : Float64 → Float64 → Float64
  | .finite a, .finite b => .finite (nearestDouble (a / b))
  | .nan, _ => .nan
  | _, .nan => .nan
  | .infinite _, .infinite _ => .nan
  | .infinite a, .finite _ => .infinite a
  | .finite _, .infinite _ => .finite 0

/-- `min(x, y)`. -/
def minOf (x y : Float64) : Float64 := if y < x then y else x

/-- `round(x, n)`. -/
def roundTo (n : Nat) : Float64 → Float64
  | .finite a => .finite (roundDigits n a)
  | .infinite a => .infinite a
  | .nan => .nan

/-- `math.exp2(x)`, of a number that is not positive; `exp2` is the function on the finite ones. -/
def exp2Of (exp2 : ℚ → ℚ) : Float64 → Float64
  | .finite a => .finite (exp2 a)
  | .infinite a => if a then .finite 0 else .infinite false
  | .nan => .nan

/-- `not x < 0`. -/
def Nonneg : Float64 → Prop
  | .finite a => 0 ≤ a
  | .infinite a => a = false
  | .nan => True

theorem finite_lt_finite {a b : ℚ} : (Float64.finite a < .finite b) ↔ a < b := Iff.rfl

theorem nonneg_abs (x : Float64) : x.abs.Nonneg := by
  cases x with
  | finite a => exact abs_nonneg a
  | infinite a => rfl
  | nan => trivial

theorem Nonneg.add {x y : Float64} (hx : x.Nonneg) (hy : y.Nonneg) : (x.add y).Nonneg := by
  cases x with
  | nan => cases y <;> trivial
  | infinite a =>
    obtain rfl : a = false := hx
    cases y with
    | nan => trivial
    | infinite b =>
      obtain rfl : b = false := hy
      rfl
    | finite b => rfl
  | finite a =>
    cases y with
    | nan => trivial
    | infinite b => exact hy
    | finite b => exact nearestDouble_nonneg (add_nonneg hx hy)

theorem Nonneg.div {x : Float64} {b : ℚ} (hx : x.Nonneg) (hb : 0 ≤ b) : (x.div (.finite b)).Nonneg := by
  cases x with
  | nan => trivial
  | infinite a => exact hx
  | finite a => exact nearestDouble_nonneg (div_nonneg hx hb)

/-- The bounded side of `min(bound, x)`: whatever `x` is, a finite bound is kept. -/
theorem minOf_finite {bound : ℚ} (hbound : 0 ≤ bound) {x : Float64} (hx : x.Nonneg) :
    ∃ q, minOf (.finite bound) x = .finite q ∧ 0 ≤ q ∧ q ≤ bound := by
  unfold minOf
  split
  · next hlt =>
    cases x with
    | finite a => exact ⟨a, rfl, hx, (finite_lt_finite.mp hlt).le⟩
    | infinite a =>
      obtain rfl : a = false := hx
      cases hlt
    | nan => cases hlt
  · exact ⟨bound, rfl, hbound, le_rfl⟩

theorem minOf_nan (x : Float64) : minOf .nan x = .nan := by
  unfold minOf
  rw [if_neg]
  intro h
  cases x <;> cases h

theorem add_nan (x : Float64) : x.add .nan = .nan := by
  cases x <;> rfl

/-- What is not a number is not the smaller one. -/
theorem minOf_of_nan (x : Float64) : minOf x .nan = x := by
  unfold minOf
  rw [if_neg]
  intro h
  cases h

end Float64

end Oecophylla.Python
