import Oecophylla.Label.Contract
import Oecophylla.Label.Payload
import Oecophylla.Lib.Collect
import Oecophylla.Lib.Except

namespace Oecophylla.Label.Rust

open Lib (Collected collectStep compareBy compareTriple stableSort)

/-!
# The Rust resolver — `interaction-service/src/label_contract.rs`

* `canonicalPayload`, `duration` — the helpers of the module;
* `deriveLabelV2` — the resolver;
* `deriveLabelV2_eq_ok_iff` — what it returns on a list of objects.

The first events are kept in a `HashMap`, whose order is unspecified.  The list that is made of them is
sorted by time and id, no two of them have one id, and so the order of the map does not matter.
-/

/-- `serde_json::to_string`: integers beyond 64 bits were read as doubles. -/
def serde : Writer where
  order := byName
  int z := if -2 ^ 63 ≤ z ∧ z < 2 ^ 64 then toString z else (Double.ofInt z).text ".0"
  float d := (Double.ofDecimal d).text ".0"

/-- `canonical_payload(event)`. -/
def canonicalPayload (event : Object) : String := serde.write (.obj event)

/-- `duration(event)`. -/
def duration (event : Object) : Option Int :=
  ((event.get "continuous_visible_ms").bind Json.asI64).or
    (((event.get "dwell_ms").bind Json.asI64).or
      ((((event.get "metadata").bind Json.asObject).bind
        fun metadata => Object.get metadata "continuous_visible_ms").bind Json.asI64))

/-- The identity of an event. -/
def eventId (event : Object) : Option String := (event.get "event_id").bind Json.asStr

/-- Two events with one id are the same. -/
def samePayload (existing event : Object) : Bool :=
  canonicalPayload existing == canonicalPayload event

/-- `event.get(name).and_then(Value::as_str).unwrap_or("")`. -/
def text (event : Object) (name : String) : String :=
  ((event.get name).bind Json.asStr).getD ""

/-- The sort key of an event. -/
def sortKey (event : Object) : String × String × String :=
  (text event "occurred_at", text event "ingested_at", text event "event_id")

/-- The order of the accepted events. -/
def compareEvents : Object → Object → Ordering :=
  compareBy (compareTriple compare compare compare) sortKey

instance : Std.TransCmp compareEvents :=
  inferInstanceAs (Std.TransCmp (compareBy (compareTriple compare compare compare) sortKey))

/-- Whether the event is a view or a dwell that reaches the threshold. -/
def qualifies (qualifiedReadMs : Int) (event : Object) : Bool :=
  timed (text event "event_type") && (duration event).any fun ms => decide (qualifiedReadMs ≤ ms)

/-- What the resolver takes from an event. -/
def evidence (qualifiedReadMs : Int) (event : Object) : Evidence :=
  ⟨text event "event_type", qualifies qualifiedReadMs event⟩

/-- One round of the reading loop. -/
def read (defaults : Object) (c : Collected Object) (raw : Json) :
    Except String (Collected Object) :=
  match raw.asObject with
  | none => .error "event must be an object"
  | some event =>
    match collectStep eventId samePayload c (Object.merge defaults event) with
    | .error key => .error ("conflicting duplicate event: " ++ key)
    | .ok c => .ok c

/-- `derive_label_v2(events, defaults, qualified_read_ms, label_window_closed)`.  (The loop
    has no list of reversed types; here it is dropped from the result.) -/
def deriveLabelV2 (events : List Json) (defaults : Object) (qualifiedReadMs : Int)
    (labelWindowClosed : Bool) : Except String Verdict :=
  if qualifiedReadMs ≤ 0 then .error "qualified_read_ms must be positive"
  else do
    let c ← events.foldlM (read defaults) .empty
    let accepted := stableSort compareEvents c.accepted
    pure (resolve labelWindowClosed c.duplicates (accepted.map fun event =>
      (evidence qualifiedReadMs event, text event "event_id"))).toVerdict

/-! ### What the resolver returns -/

/-- The events that are accepted when nothing conflicts. -/
def acceptedEvents (defaults : Object) (events : List Object) : List Object :=
  (Lib.collected eventId (events.map (Object.merge defaults))).accepted

theorem samePayload_refl (event : Object) : samePayload event event = true := by
  simp [samePayload]

/-- On objects the reading loop is the collecting loop. -/
theorem foldlM_read {defaults : Object} {events : List Object} {c d : Collected Object} :
    (events.map Json.obj).foldlM (read defaults) c = .ok d ↔
      (events.map (Object.merge defaults)).foldlM (collectStep eventId samePayload) c = .ok d := by
  induction events generalizing c with
  | nil => rfl
  | cons event events ih =>
    simp only [List.map_cons, List.foldlM_cons, Lib.except_bind_eq_ok, read, Json.asObject]
    cases hstep : collectStep eventId samePayload c (Object.merge defaults event) with
    | error key => simp
    | ok e => simpa using ih

/-- **The Rust resolver.**  On a list of objects it returns exactly when no duplicate
    conflicts; it then resolves the evidence of the accepted events in the order of the
    texts of their keys. -/
theorem deriveLabelV2_eq_ok_iff {events : List Object} {defaults : Object} {qualifiedReadMs : Int}
    {labelWindowClosed : Bool} {r : Verdict} (hpos : 0 < qualifiedReadMs) :
    deriveLabelV2 (events.map Json.obj) defaults qualifiedReadMs labelWindowClosed = .ok r ↔
      ¬ Lib.Conflicting eventId samePayload (events.map (Object.merge defaults))
        ∧ r = (resolve labelWindowClosed
          (Lib.collected eventId (events.map (Object.merge defaults))).duplicates
          ((stableSort compareEvents (acceptedEvents defaults events)).map fun event =>
            (evidence qualifiedReadMs event, text event "event_id"))).toVerdict := by
  have hneg : ¬ qualifiedReadMs ≤ 0 := by omega
  unfold deriveLabelV2 acceptedEvents
  simp only [hneg, if_false, Lib.except_bind_eq_ok, foldlM_read, Lib.except_pure_eq_ok]
  constructor
  · rintro ⟨c, hc, rfl⟩
    obtain ⟨hno, rfl⟩ := (Lib.collect_eq_ok_iff samePayload_refl).mp hc
    exact ⟨hno, rfl⟩
  · rintro ⟨hno, rfl⟩
    exact ⟨_, (Lib.collect_eq_ok_iff samePayload_refl).mpr ⟨hno, rfl⟩, rfl⟩

/-- Keyed events are not tied: their ids differ. -/
theorem pairwise_compareEvents_ne {l : List Object} (hkey : ∀ e ∈ l, (eventId e).isSome)
    (hnodup : (l.map eventId).Nodup) : l.Pairwise fun a b => compareEvents a b ≠ .eq := by
  have hpair := List.pairwise_map.mp hnodup
  refine hpair.imp_of_mem ?_
  intro a b ha hb hab
  apply Lib.compareTriple_ne_eq
  obtain ⟨i, hi⟩ := Option.isSome_iff_exists.mp (hkey a ha)
  obtain ⟨j, hj⟩ := Option.isSome_iff_exists.mp (hkey b hb)
  rw [hi, hj] at hab
  unfold eventId at hi hj
  simp only [sortKey, text, hi, hj, Option.getD_some]
  exact fun h => hab (congrArg some h)

end Oecophylla.Label.Rust
