import Oecophylla.Python.Value
import Oecophylla.Worker.Features

namespace Oecophylla.Worker

open Oecophylla.Python (Value Dict str truthy uuidOfText)

/-!
# Envelopes — the helpers of `feature_store_worker/app/main.py`

* `Envelope` — a record value whose `data` is an object;
* `eventType`, `eventId`, `extractUser`, `validFeatureEvent` — the helpers;
* `classify` — the chain of checks of `_flush`, as one outcome.
-/

/-- A UUID. -/
abbrev Uuid := Nat

/-- A record value: a dictionary whose `data` is a dictionary. -/
structure Envelope where
  fields : Dict
  data : Dict
  data_eq : Dict.get fields "data" = some (.dict data)

/-- `d.get(name)`. -/
def getOrNone (d : Dict) (name : String) : Value := (Dict.get d name).getD .none

/-- `x or y`. -/
def pyOr (x y : Value) : Value := if truthy x then x else y

/-- `_event_type(env)`. -/
def eventType (env : Envelope) : String :=
  str (pyOr (getOrNone env.fields "event_type") (pyOr (getOrNone env.fields "type") (.str "")))

/-- `_event_id(env)`. -/
def eventId (env : Envelope) : Option Uuid := uuidOfText (str (getOrNone env.fields "event_id"))

/-- `UUID_KEYS`. -/
def uuidKeys : List String := ["user_id", "reporter_id", "commenter_id"]

/-- `_extract_user(env)`: the first key that is present decides. -/
def extractUser (env : Envelope) : Option Uuid :=
  (uuidKeys.findSome? fun key => Dict.get env.data key).bind fun v => uuidOfText (str v)

/-- `_identity_field_is_present(env)`. -/
def identityFieldIsPresent (env : Envelope) : Bool :=
  uuidKeys.any fun key => (Dict.get env.data key).isSome

/-- `x == n`, for a number `n`. -/
def equalsInt (n : Int) : Value → Bool
  | .bool b => (if b then 1 else 0) = n
  | .int z => z = n
  | .float d => d.isIntegral && d.truncate = n
  | _ => false

/-- `x == text`. -/
def equalsText (text : String) : Value → Bool
  | .str s => s = text
  | _ => false

/-- `x is None`. -/
def isNone : Value → Bool
  | .none => true
  | _ => false

/-- `isinstance(x, int) and x >= n`. -/
def intAtLeast (n : Int) : Value → Bool
  | .bool b => n ≤ (if b then 1 else 0)
  | .int z => n ≤ z
  | _ => false

/-- `_valid_feature_event(env, qualified_read_ms)`. -/
def validFeatureEvent (qualifiedReadMs : Int) (env : Envelope) : Bool :=
  let version := getOrNone env.fields "event_version"
  if eventType env = "viewed" then
    isNone version || equalsInt 1 version || equalsText "1" version || equalsText "v1" version
  else if eventType env = "qualified_read" then
    (equalsInt 2 version || equalsText "2" version || equalsText "v2" version)
      && intAtLeast qualifiedReadMs (getOrNone env.data "duration_ms")
  else true

/-- `IGNORED_EVENT_TYPES`. -/
def ignoredEventTypes : List String := ["visible"]

/-- What `_flush` makes of an envelope. -/
inductive Outcome where
  | ignored
  | unknown
  | invalid
  | feature (user id : Uuid)
  deriving DecidableEq, Repr

/-- The checks of `_flush`. -/
def classify (qualifiedReadMs : Int) (env : Envelope) : Outcome :=
  if eventType env ∈ ignoredEventTypes then .ignored
  else if (weights.lookup (eventType env)).isNone then .unknown
  else if ¬ validFeatureEvent qualifiedReadMs env then .invalid
  else match extractUser env with
    | none => if identityFieldIsPresent env then .invalid else .unknown
    | some user =>
      match eventId env with
      | none => .unknown
      | some id => .feature user id

/-- A feature event has an id and a user. -/
theorem of_classify_eq_feature {qualifiedReadMs : Int} {env : Envelope} {user id : Uuid}
    (h : classify qualifiedReadMs env = .feature user id) :
    extractUser env = some user ∧ eventId env = some id := by
  unfold classify at h
  cases hu : extractUser env with
  | none =>
    simp only [hu] at h
    split_ifs at h
  | some u =>
    cases hi : eventId env with
    | none =>
      simp only [hu, hi] at h
      split_ifs at h
    | some i =>
      simp only [hu, hi] at h
      split_ifs at h
      rw [Outcome.feature.injEq] at h
      exact ⟨congrArg some h.1, congrArg some h.2⟩

end Oecophylla.Worker
