import Mathlib.Algebra.Order.Round
import Oecophylla.Python.Rounding

namespace Oecophylla.Frontend

/-!
# What the trackers record — `recommendationTelemetry.ts`

The trackers of the web client watch an element and call a `TelemetryRecorder`.  Numbers are those of
an ordered field `K`: clock values and ratios are exact, and `Math.round` rounds.

JavaScript rounds every sum and every difference to a double, so that 0.6 - 0.1 is 0.5 although the two
doubles are not that far from each other.  Where it matters how long something was, sums and differences
are those of `Arithmetic K`; the rationals with the rounding to the nearest double are the instance that
runs.

* `Call` — the calls of a tracker on its recorder;
* `Timers` — the timeouts of the page that are pending;
* `Arithmetic` — how the page adds and subtracts;
* `clampMilliseconds`, `clampNumber` — a duration as it is sent.
-/

/-- `RecommendationContext`. -/
structure RecommendationContext where
  postId : String
  impressionId : Option String
  requestId : Option String
  modelVersion : Option String
  position : Option Int
  deriving DecidableEq, Repr

/-- `DwellTrigger`. -/
inductive DwellTrigger where
  | viewportExit
  | pageHidden
  | destroy
  deriving DecidableEq, Repr

/-- The text of a trigger. -/
def DwellTrigger.text : DwellTrigger → String
  | .viewportExit => "viewport_exit"
  | .pageHidden => "page_hidden"
  | .destroy => "destroy"

/-- `ViewTrigger`. -/
inductive ViewTrigger where
  | feed
  | detail
  deriving DecidableEq, Repr

/-- The text of a trigger. -/
def ViewTrigger.text : ViewTrigger → String
  | .feed => "feed"
  | .detail => "detail"

/-- A call of `TelemetryRecorder`. -/
inductive Call (K : Type*) where
  | visible (context : RecommendationContext) (viewportRatio : K)
  | view (context : RecommendationContext) (trigger : ViewTrigger) (continuousVisibleMs : K)
      (visitId : Option String)
  | click (context : RecommendationContext)
  | dwell (context : RecommendationContext) (dwellMs : K) (trigger : DwellTrigger)
      (visitId : Option String)
  | flush
  deriving DecidableEq, Repr

/-- An `IntersectionObserverEntry` of the element that a tracker watches. -/
structure Entry (K : Type*) where
  isIntersecting : Bool
  intersectionRatio : K
  deriving DecidableEq, Repr

/-! ### Timeouts -/

/-- The timeouts that are set and have not fired, and the next handle; handles are positive. -/
structure Timers where
  next : Nat := 1
  pending : List Nat := []
  deriving DecidableEq, Repr

/-- `setTimeout`: the new handle is `next`. -/
def Timers.set (t : Timers) : Timers := ⟨t.next + 1, t.pending ++ [t.next]⟩

/-- `clearTimeout`, of a handle or of none. -/
def Timers.clear (t : Timers) (handle : Option Nat) : Timers :=
  { t with pending := t.pending.filter fun h => some h ≠ handle }

/-- A timeout fires. -/
def Timers.fire (t : Timers) (handle : Nat) : Timers := t.clear (some handle)

/-! ### Sums and differences -/

/-- How a page adds and subtracts numbers of `K`: the result is `rounded`, which keeps the order and does
    not move what is a number already, and it is infinite if it is not `isFinite`. -/
class Arithmetic (K : Type*) [Field K] [LinearOrder K] where
  rounded : K → K
  isFinite : K → Bool
  rounded_mono : Monotone rounded
  rounded_zero : rounded 0 = 0
  rounded_rounded (x : K) : rounded (rounded x) = rounded x

export Arithmetic (rounded rounded_mono rounded_zero rounded_rounded)

/-- The doubles; the first number beyond them is `2 ^ 1024`. -/
instance doubles : Arithmetic ℚ where
  rounded := Python.nearestDouble
  isFinite q := decide (|q| < 2 ^ 1024)
  rounded_mono _ _ := Python.nearestDouble_mono
  rounded_zero := Python.nearestDouble_zero
  rounded_rounded := Python.isDouble_nearestDouble

theorem rounded_nonneg {K : Type*} [Field K] [LinearOrder K] [Arithmetic K] {x : K} (h : 0 ≤ x) :
    0 ≤ rounded x := by
  rw [← rounded_zero (K := K)]
  exact rounded_mono h

/-! ### Durations -/

section Durations

variable {K : Type*} [Field K] [LinearOrder K] [IsStrictOrderedRing K] [FloorRing K]

/-- `MAX_DWELL_MS`. -/
def maxDwellMs : Int := 1800000

/-- `clampMilliseconds(value)`; a clock shows finite values. -/
def clampMilliseconds (value : K) : Int := min maxDwellMs (max 0 (round value))

omit [IsStrictOrderedRing K] in
theorem clampMilliseconds_nonneg (value : K) : 0 ≤ clampMilliseconds value :=
  le_min (by decide) (le_max_left _ _)

omit [IsStrictOrderedRing K] in
theorem clampMilliseconds_le (value : K) : clampMilliseconds value ≤ maxDwellMs := min_le_left _ _

/-- Rounding keeps the order. -/
theorem round_mono {x y : K} (h : x ≤ y) : round x ≤ round y := by
  rw [round_eq, round_eq]
  exact Int.floor_mono (by linarith)

/-- A duration is sent as at most the nearest millisecond. -/
theorem clampMilliseconds_le_round {x y : K} (hy : 0 ≤ y) (h : x ≤ y) :
    clampMilliseconds x ≤ round y := by
  have hround : 0 ≤ round y := by
    rw [← round_zero (α := K)]
    exact round_mono hy
  exact (min_le_right _ _).trans (max_le hround (round_mono h))

/-- `clampMilliseconds(value)`, of what a sum may have made infinite. -/
def clampNumber [Arithmetic K] (value : K) : Int :=
  if Arithmetic.isFinite value then clampMilliseconds value else 0

theorem clampNumber_le_round [Arithmetic K] {x y : K} (hy : 0 ≤ y) (h : x ≤ y) :
    clampNumber x ≤ round y := by
  unfold clampNumber
  split
  · exact clampMilliseconds_le_round hy h
  · rw [← round_zero (α := K)]
    exact round_mono hy

/-- A whole number of milliseconds in range is sent as it is. -/
theorem clampMilliseconds_intCast {n : Int} (hn : 0 ≤ n) (hmax : n ≤ maxDwellMs) :
    clampMilliseconds (n : K) = n := by
  unfold clampMilliseconds
  rw [round_intCast, max_eq_right hn, min_eq_right hmax]

end Durations

end Oecophylla.Frontend
