import Oecophylla.Json

namespace Oecophylla.Worker

/-!
# Topic weights — `feature_store_worker/app/features.py`, the v1 vector

* `weights` — the weight of every event type;
* `applyTopicDelta` — one interaction, spread over the topics of its post.

Doubles are a parameter: `Floats` has the operations that the worker uses, and the only law
about them that the development needs.
-/

/-- The operations on doubles of the worker. -/
structure Floats (F : Type) where
  /-- A literal. -/
  ofDecimal : Decimal → F
  add : F → F → F
  /-- `x / n`. -/
  div : F → Nat → F
  /-- `round(x, 4)`. -/
  round4 : F → F
  /-- `x == 0.0`. -/
  isZero : F → Bool
  /-- `0.0 / n == 0.0`. -/
  isZero_div : ∀ n, 0 < n → isZero (div (ofDecimal ⟨false, 0, 0⟩) n) = true

/-- A literal with one digit behind the point. -/
def tenths (negative : Bool) (digits : Nat) : Decimal :=
  if digits = 0 then ⟨false, 0, 0⟩ else ⟨negative, digits, -1⟩

/-- `WEIGHTS`. -/
def weights : List (String × Decimal) :=
  [("click", tenths false 0), ("view_observed", tenths false 0), ("dwell", tenths false 0),
   ("unhide", tenths false 0), ("viewed", tenths false 5), ("qualified_read", tenths false 5),
   ("liked", tenths false 15), ("unliked", tenths true 15), ("saved", tenths false 25),
   ("unsaved", tenths true 25), ("shared", tenths false 25), ("unshared", tenths true 25),
   ("hidden", tenths true 20), ("reported", tenths true 50), ("commented", tenths false 10),
   ("comment_replied", tenths false 7)]

/-- A vector of topic weights. -/
abbrev TopicWeights (F : Type) := List (String × F)

section Features

variable {F : Type} (fl : Floats F)

/-- `0.0`. -/
def Floats.zero : F := fl.ofDecimal ⟨false, 0, 0⟩

/-- `apply_topic_delta(vec, topics, event_type)`. -/
def applyTopicDelta (vec : TopicWeights F) (topics : List String) (eventType : String) : TopicWeights F :=
  let topics := if topics = [] then ["general"] else topics
  let delta := fl.div (fl.ofDecimal ((weights.lookup eventType).getD ⟨false, 0, 0⟩)) topics.length
  if fl.isZero delta then vec
  else topics.foldl (fun out topic =>
    Object.set out topic (fl.round4 (fl.add ((out.lookup topic).getD fl.zero) delta))) vec

/-- An event without a weight changes nothing. -/
theorem applyTopicDelta_of_weightless {eventType : String} (vec : TopicWeights F) (topics : List String)
    (h : (weights.lookup eventType).getD ⟨false, 0, 0⟩ = ⟨false, 0, 0⟩) :
    applyTopicDelta fl vec topics eventType = vec := by
  unfold applyTopicDelta
  have hpos : 0 < (if topics = [] then ["general"] else topics).length := by
    split
    · decide
    · next hne => exact List.length_pos_iff.mpr hne
  rw [h, if_pos (fl.isZero_div _ hpos)]

end Features

end Oecophylla.Worker
