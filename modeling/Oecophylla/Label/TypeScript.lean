import Oecophylla.Label.Contract
import Oecophylla.Label.Payload
import Oecophylla.Lib.Collect
import Oecophylla.Lib.Except

namespace Oecophylla.Label.TypeScript

open Lib (collect compareBy compareTriple stableSort)

/-!
# The TypeScript resolver — `frontend/src/lib/telemetry/recommendationLabel.ts`

The resolver compares texts with `String.prototype.localeCompare`, which depends on the
locale of the runtime; it is a parameter here.

* `payload`, `duration` — the helpers of the module;
* `deriveLabelV2` — the resolver;
* `deriveLabelV2_eq_ok_iff` — what it returns.
-/

/-- An array index: such names come first among the names of an object. -/
def arrayIndex (name : String) : Option Nat :=
  match name.toNat? with
  | some n => if toString n = name ∧ n < 2 ^ 32 - 1 then some n else none
  | none => none

/-- The order in which an object has its own names: array indices by value, then the others
    as they were added. -/
def ownNames {α : Type} (fields : List (String × α)) : List (String × α) :=
  stableSort (compareBy compare fun f => (arrayIndex f.1).getD 0)
      (fields.filter fun f => (arrayIndex f.1).isSome)
    ++ fields.filter fun f => (arrayIndex f.1).isNone

/-- The text of a number in `JSON.stringify` and `String`. -/
def numberText : Double → String
  | .negativeZero => "0"
  | x => x.text ""

section Locale

variable (localeCompare : String → String → Ordering)

/-- `JSON.stringify(canonicalJson(…))`: the entries are sorted, and the object made of them
    has its names in its own order again. -/
def stringify : Writer where
  order fields := ownNames (stableSort (compareBy localeCompare Prod.fst) (ownNames fields))
  int z := numberText (Double.ofInt z)
  float d := numberText (Double.ofDecimal d)

/-- `payload(event)`. -/
def payload (event : Object) : String := (stringify localeCompare).write (.obj event)

/-- Two events with one id are the same. -/
def samePayload (existing event : Object) : Bool :=
  payload localeCompare existing == payload localeCompare event

end Locale

/-- `o[name] ?? …`: a field that is neither missing nor `null`. -/
def field (o : Object) (name : String) : Option Json :=
  match o.get name with
  | some .null => none
  | v => v

mutual
/-- `String(value)`. -/
def string : Json → String
  | .null => "null"
  | .bool b => if b then "true" else "false"
  | .int z => numberText (Double.ofInt z)
  | .float d => numberText (Double.ofDecimal d)
  | .str s => s
  | .arr items => String.intercalate "," (joined items)
  | .obj _ => "[object Object]"

/-- The parts of `items.join()`; `null` is empty there. -/
def joined : List Json → List String
  | [] => []
  | .null :: vs => "" :: joined vs
  | v :: vs => string v :: joined vs
end

/-- `String(event[name] ?? '')`. -/
def text (event : Object) (name : String) : String := ((field event name).map string).getD ""

/-- The number a value is, when it is a finite one. -/
def finite : Json → Option Double
  | .int z =>
    match Double.ofInt z with
    | .infinite _ => none
    | x => some x
  | .float d =>
    match Double.ofDecimal d with
    | .infinite _ => none
    | x => some x
  | _ => none

/-- The fields of the metadata, when it is an object. -/
def metadata (event : Object) : Object := ((event.get "metadata").bind Json.asObject).getD []

/-- `duration(event)`. -/
def duration (event : Object) : Option Double :=
  ((field event "continuous_visible_ms").or ((field (metadata event) "continuous_visible_ms").or
    (field event "dwell_ms"))).bind finite

/-- The identity of an event. -/
def eventId (event : Object) : Option String := (event.get "event_id").bind Json.asStr

/-- The sort key of an event. -/
def sortKey (event : Object) : String × String × String :=
  (text event "occurred_at", text event "ingested_at", text event "event_id")

/-- The order of the accepted events. -/
def compareEvents (localeCompare : String → String → Ordering) : Object → Object → Ordering :=
  compareBy (compareTriple localeCompare localeCompare localeCompare) sortKey

instance (localeCompare : String → String → Ordering) [Std.TransCmp localeCompare] :
    Std.TransCmp (compareEvents localeCompare) :=
  inferInstanceAs (Std.TransCmp
    (compareBy (compareTriple localeCompare localeCompare localeCompare) sortKey))

/-- Whether the event is a view or a dwell that reaches the threshold. -/
def qualifies (qualifiedReadMs : Int) (event : Object) : Bool :=
  timed (text event "event_type") && (duration event).any (Double.atLeast qualifiedReadMs)

/-- What the resolver takes from an event. -/
def evidence (qualifiedReadMs : Int) (event : Object) : Evidence :=
  ⟨text event "event_type", qualifies qualifiedReadMs event⟩

/-- `Number.isInteger(x) && x > 0`. -/
def positiveInteger : Double → Option Int
  | .integral t => if 0 < t then some t else none
  | _ => none

/-- `deriveLabelV2(events, { defaults, labelWindowClosed, qualifiedReadMs })`. -/
def deriveLabelV2 (localeCompare : String → String → Ordering) (events : List Object)
    (defaults : Object) (qualifiedReadMs : Double) (labelWindowClosed : Bool) :
    Except String LabelResult :=
  match positiveInteger qualifiedReadMs with
  | none => .error "qualifiedReadMs must be a positive integer"
  | some threshold =>
    match collect eventId (samePayload localeCompare) (events.map (Object.merge defaults)) with
    | .error key => .error ("conflicting duplicate event: " ++ key)
    | .ok c =>
      let accepted := stableSort (compareEvents localeCompare) c.accepted
      .ok (resolve labelWindowClosed c.duplicates (accepted.map fun event =>
        (evidence threshold event, text event "event_id")))

/-! ### What the resolver returns -/

/-- The events that are accepted when nothing conflicts. -/
def acceptedEvents (defaults : Object) (events : List Object) : List Object :=
  (Lib.collected eventId (events.map (Object.merge defaults))).accepted

variable {localeCompare : String → String → Ordering}

theorem samePayload_refl (event : Object) : samePayload localeCompare event event = true := by
  simp [samePayload]

/-- **The TypeScript resolver.**  It returns exactly when no duplicate conflicts; it then
    resolves the evidence of the accepted events in the order of its `localeCompare`. -/
theorem deriveLabelV2_eq_ok_iff {events : List Object} {defaults : Object} {threshold : Int}
    {qualifiedReadMs : Double} {labelWindowClosed : Bool} {r : LabelResult}
    (hthreshold : positiveInteger qualifiedReadMs = some threshold) :
    deriveLabelV2 localeCompare events defaults qualifiedReadMs labelWindowClosed = .ok r ↔
      ¬ Lib.Conflicting eventId (samePayload localeCompare) (events.map (Object.merge defaults))
        ∧ r = resolve labelWindowClosed
          (Lib.collected eventId (events.map (Object.merge defaults))).duplicates
          ((stableSort (compareEvents localeCompare) (acceptedEvents defaults events)).map
            fun event => (evidence threshold event, text event "event_id")) := by
  unfold deriveLabelV2 acceptedEvents
  simp only [hthreshold]
  cases hc : collect eventId (samePayload localeCompare) (events.map (Object.merge defaults)) with
  | error key =>
    have hconflict : Lib.Conflicting eventId (samePayload localeCompare)
        (events.map (Object.merge defaults)) := by
      by_contra hno
      obtain ⟨c, hok⟩ := (Lib.collect_isOk_iff samePayload_refl).mpr hno
      simp [hc] at hok
    simp [hconflict]
  | ok c =>
    obtain ⟨hno, rfl⟩ := (Lib.collect_eq_ok_iff samePayload_refl).mp hc
    rw [Except.ok.injEq, eq_comm]
    exact (and_iff_right hno).symm

end Oecophylla.Label.TypeScript
