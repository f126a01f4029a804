import Oecophylla.Label.Contract
import Oecophylla.Label.Payload
import Oecophylla.Lib.Collect
import Oecophylla.Lib.Except
import Oecophylla.Python.Fromisoformat

namespace Oecophylla.Label.Python

open Oecophylla.Python (Value Dict Datetime)
open Lib (collect compareBy compareTriple stableSort)

/-!
# The Python resolver — `recommendation_label/__init__.py`

* `value`, `eventMapping`, `timestamp`, `canonicalPayload` — the helpers of the module;
* `deriveLabel` — the resolver, for both label versions;
* `deriveLabel_eq_ok_iff` — when it returns, and what;
* `deriveLabel_v2_eq_ok_iff` — for label version v2: `Contract.resolve` of the evidence of the
  accepted events, in the order of their keys.
-/

/-- `LabelVersion`. -/
inductive LabelVersion where
  | v1
  | v2
  deriving DecidableEq, Repr

/-- An event: a mapping, or an object with attributes. -/
inductive Event where
  | mapping (d : Dict)
  | record (attributes : Dict)
  deriving Inhabited

/-- What the resolver raises: its own `ValueError`s, with their texts, or what
    `datetime.fromisoformat`, `astimezone` and `int` raise. -/
inductive Raised where
  | valueError (text : String)
  | timestamp
  | duration
  deriving DecidableEq, Repr

/-! ### Reading an event -/

/-- `_value(event, name)` on a mapping. -/
def value (event : Dict) (name : String) : Value :=
  match event.get name with
  | some v => v
  | none =>
    match event.get "metadata" with
    | some (.dict metadata) => (Dict.get metadata name).getD .none
    | _ => .none

/-- `_value(event, name)` on an object. -/
def objectValue (attributes : Dict) (name : String) : Value :=
  match (attributes.get name).getD .none with
  | .none =>
    match attributes.get "metadata" with
    | some (.dict metadata) => (Dict.get metadata name).getD .none
    | _ => .none
  | v => v

/-- `_event_mapping(event, defaults)`. -/
def eventMapping (defaults : Dict) : Event → Dict
  | .mapping d => Object.merge defaults d
  | .record attributes =>
    ["id", "event_id", "event_type", "event_version", "occurred_at", "ingested_at", "dwell_ms",
      "continuous_visible_ms", "metadata"].foldl
      (fun values name =>
        match (attributes.get name).getD .none with
        | .none => values
        | v => Object.set values (if name = "id" then "event_id" else name) v)
      defaults

/-- `value.replace("Z", "+00:00")`. -/
def replaceZ (s : String) : String :=
  String.ofList (s.toList.flatMap fun c => if c = 'Z' then "+00:00".toList else [c])

/-- `_timestamp(value)`, in microseconds since `datetime.min`; `none` when it raises. -/
def timestamp : Value → Option Int
  | .datetime t => t.instant
  | .str s => (Oecophylla.Python.fromisoformat (replaceZ s)).bind Datetime.instant
  | _ => some 0

mutual
/-- `_canonical_json_value(value)`, before its fields are sorted. -/
def canonicalJsonValue : Value → Json
  | .none => .null
  | .bool b => .bool b
  | .int z => .int z
  | .float d => .float d
  | .str s => .str s
  | .list items => .arr (canonicalItems items)
  | .dict fields => .obj (canonicalFields fields)
  | .datetime t => .str t.isoformat
  | .uuid n => .str (Oecophylla.Python.uuidText n)

/-- The items of a list. -/
def canonicalItems : List Value → List Json
  | [] => []
  | v :: vs => canonicalJsonValue v :: canonicalItems vs

/-- The fields of a mapping. -/
def canonicalFields : List (String × Value) → Object
  | [] => []
  | (k, v) :: fs => (k, canonicalJsonValue v) :: canonicalFields fs
end

/-- `json.dumps(…, ensure_ascii=False, separators=(",", ":"), sort_keys=True)`. -/
def dumps : Writer where
  order := byName
  int := toString
  float := Oecophylla.Python.floatRepr

/-- `_canonical_payload(event)`. -/
def canonicalPayload (event : Dict) : String := dumps.write (.obj (canonicalFields event))

/-- `event_label_version(event)`. -/
def eventLabelVersion (event : Event) : Except Raised LabelVersion :=
  let version := match event with
    | .mapping d => value d "event_version"
    | .record attributes => objectValue attributes "event_version"
  match version with
  | .none => .ok .v1
  | v =>
    let normalized := Oecophylla.Python.str v
    if normalized = "v1" then .ok .v1
    else if normalized = "v2" then .ok .v2
    else .error (.valueError ("unsupported persisted event version: " ++ normalized))

/-! ### The resolver -/

/-- The identity of an event: `str(event["event_id"])`, none when it is anonymous. -/
def eventId (event : Dict) : Option String :=
  match (event.get "event_id").getD .none with
  | .none => none
  | v => some (Oecophylla.Python.str v)

/-- Two events with one id are the same. -/
def samePayload (existing event : Dict) : Bool := canonicalPayload existing == canonicalPayload event

/-- `str(event.get("event_id", ""))`. -/
def idText (event : Dict) : String := Oecophylla.Python.str ((event.get "event_id").getD (.str ""))

/-- `str(event.get("event_type", ""))`. -/
def eventType (event : Dict) : String :=
  Oecophylla.Python.str ((event.get "event_type").getD (.str ""))

/-- The sort key of an event; `none` when a timestamp raises. -/
def sortKey (event : Dict) : Option (Int × Int × String) := do
  let occurred ← timestamp ((event.get "occurred_at").getD .none)
  let ingested ← timestamp ((event.get "ingested_at").getD .none)
  some (occurred, ingested, idText event)

/-- The order of the sort keys. -/
def compareKeys : Int × Int × String → Int × Int × String → Ordering :=
  compareTriple compare compare compare

/-- The order of the events whose keys can be read. -/
def compareEvents : Dict → Dict → Ordering :=
  compareBy compareKeys fun event => (sortKey event).getD (0, 0, "")

instance : Std.TransCmp compareKeys :=
  inferInstanceAs (Std.TransCmp (compareTriple compare compare compare))

instance : Std.TransCmp compareEvents :=
  inferInstanceAs (Std.TransCmp (compareBy compareKeys fun event => (sortKey event).getD (0, 0, "")))

/-- `accepted.sort(key=…)`: the keys are all computed first. -/
def sort (accepted : List Dict) : Except Raised (List Dict) :=
  if ∀ event ∈ accepted, (sortKey event).isSome then .ok (stableSort compareEvents accepted)
  else .error .timestamp

/-- The measured duration: `continuous_visible_ms`, else `dwell_ms`. -/
def duration (event : Dict) : Value :=
  match value event "continuous_visible_ms" with
  | .none => value event "dwell_ms"
  | v => v

/-- Whether the event is a view or a dwell that reaches the threshold; `none` when `int`
    raises. -/
def qualifies (qualifiedReadMs : Int) (event : Dict) : Option Bool :=
  if timed (eventType event) then
    match duration event with
    | .none => some false
    | v => (Oecophylla.Python.int v).map fun ms => decide (qualifiedReadMs ≤ ms)
  else some false

/-- One round of the loop over the accepted events. -/
def round (labelVersion : LabelVersion) (qualifiedReadMs : Int) (v1AnyViewPositive : Bool)
    (t : Tally) (event : Dict) : Except Raised Tally :=
  let t := t.transition (eventType event)
  let t := if labelVersion = .v1 ∧ v1AnyViewPositive ∧ eventType event = "view"
    then t.add .positive else t
  match qualifies qualifiedReadMs event with
  | none => .error .duration
  | some true => .ok (t.add (if labelVersion = .v2 then .qualifiedRead else .positive))
  | some false => .ok t

/-- In v1 a click is a positive. -/
def candidatesOf (labelVersion : LabelVersion) (t : Tally) : List Semantic :=
  if labelVersion = .v1 ∧ .click ∈ t.candidates then
    .positive :: t.candidates.filter (· ≠ .click)
  else t.candidates

/-- `derive_label(events, …)`. -/
def deriveLabel (events : List Event) (labelVersion : LabelVersion) (qualifiedReadMs : Int)
    (labelWindowClosed : Bool) (defaults : Dict) (v1AnyViewPositive : Bool) :
    Except Raised LabelResult :=
  if qualifiedReadMs ≤ 0 then .error (.valueError "qualified_read_ms must be positive")
  else
    match collect eventId samePayload (events.map (eventMapping defaults)) with
    | .error key => .error (.valueError ("conflicting duplicate event: " ++ key))
    | .ok read => do
      let accepted ← sort read.accepted
      let t ← accepted.foldlM (round labelVersion qualifiedReadMs v1AnyViewPositive) .empty
      let semantic := highest (withPlain t.visible labelWindowClosed (candidatesOf labelVersion t))
      pure {
        semantic
        trainingTarget := trainingTarget semantic
        acceptedEvents := accepted.length
        deduplicatedEvents := read.duplicates
        reversedEventTypes := t.reversed
        processingOrder := accepted.map idText }

theorem idText_of_eventId {event : Dict} {k : String} (h : eventId event = some k) :
    idText event = k := by
  unfold eventId at h
  unfold idText
  cases hget : event.get "event_id" with
  | none => simp [hget] at h
  | some v =>
    rw [hget] at h
    cases v with
    | none => simp at h
    | _ => exact Option.some.inj h

/-! ### What the v2 resolver returns -/

/-- What the v2 resolver takes from an event. -/
def evidence (qualifiedReadMs : Int) (event : Dict) : Evidence :=
  ⟨eventType event, qualifies qualifiedReadMs event == some true⟩

/-- The events that are accepted when nothing conflicts. -/
def acceptedEvents (defaults : Dict) (events : List Event) : List Dict :=
  (Lib.collected eventId (events.map (eventMapping defaults))).accepted

theorem samePayload_refl (event : Dict) : samePayload event event = true := by
  simp [samePayload]

theorem sort_eq_ok_iff {accepted sorted : List Dict} :
    sort accepted = .ok sorted ↔
      (∀ event ∈ accepted, (sortKey event).isSome) ∧ sorted = stableSort compareEvents accepted := by
  unfold sort
  split_ifs with h
  · rw [Except.ok.injEq, eq_comm]
    exact (and_iff_right h).symm
  · simp [h]

/-- The target is the target of the label. -/
theorem trainingTarget_of_deriveLabel {events : List Event} {labelVersion : LabelVersion}
    {qualifiedReadMs : Int} {labelWindowClosed : Bool} {defaults : Dict} {v1AnyViewPositive : Bool}
    {r : LabelResult} (h : deriveLabel events labelVersion qualifiedReadMs labelWindowClosed defaults
      v1AnyViewPositive = .ok r) : r.trainingTarget = trainingTarget r.semantic := by
  unfold deriveLabel at h
  split at h
  · simp at h
  · split at h
    · simp at h
    · simp only [Lib.except_bind_eq_ok, Lib.except_pure_eq_ok] at h
      obtain ⟨_, -, _, -, rfl⟩ := h
      rfl

section Loop

variable {labelVersion : LabelVersion} {qualifiedReadMs : Int} {v1AnyViewPositive : Bool}

/-- One round, when the duration can be read. -/
def advance (labelVersion : LabelVersion) (qualifiedReadMs : Int) (v1AnyViewPositive : Bool)
    (t : Tally) (event : Dict) : Tally :=
  let t := t.transition (eventType event)
  let t := if labelVersion = .v1 ∧ v1AnyViewPositive ∧ eventType event = "view"
    then t.add .positive else t
  if qualifies qualifiedReadMs event == some true
  then t.add (if labelVersion = .v2 then .qualifiedRead else .positive) else t

/-- The result of the loop. -/
def resultOf (labelVersion : LabelVersion) (labelWindowClosed : Bool) (duplicates : Nat) (t : Tally)
    (processingOrder : List String) : LabelResult :=
  let semantic := highest (withPlain t.visible labelWindowClosed (candidatesOf labelVersion t))
  { semantic
    trainingTarget := trainingTarget semantic
    acceptedEvents := processingOrder.length
    deduplicatedEvents := duplicates
    reversedEventTypes := t.reversed
    processingOrder }

theorem round_eq (t : Tally) (event : Dict) :
    round labelVersion qualifiedReadMs v1AnyViewPositive t event =
      if (qualifies qualifiedReadMs event).isSome
      then .ok (advance labelVersion qualifiedReadMs v1AnyViewPositive t event)
      else .error .duration := by
  unfold round advance
  rcases hq : qualifies qualifiedReadMs event with _ | _ | _ <;> simp

theorem foldlM_round {l : List Dict} {t u : Tally} :
    l.foldlM (round labelVersion qualifiedReadMs v1AnyViewPositive) t = .ok u ↔
      (∀ event ∈ l, (qualifies qualifiedReadMs event).isSome) ∧
        u = l.foldl (advance labelVersion qualifiedReadMs v1AnyViewPositive) t := by
  apply Lib.foldlM_eq_ok_iff
  · intro t event h
    rw [round_eq, if_pos h]
  · intro t event h
    exact ⟨.duration, by rw [round_eq, if_neg h]⟩

/-- **The resolver.**  It returns exactly when the threshold is positive, no duplicate conflicts
    and every timestamp and duration can be read; it then goes through the accepted events in the
    order of their keys. -/
theorem deriveLabel_eq_ok_iff {events : List Event} {labelWindowClosed : Bool} {defaults : Dict}
    {r : LabelResult} (hpos : 0 < qualifiedReadMs) :
    deriveLabel events labelVersion qualifiedReadMs labelWindowClosed defaults v1AnyViewPositive
        = .ok r ↔
      ¬ Lib.Conflicting eventId samePayload (events.map (eventMapping defaults))
        ∧ (∀ event ∈ acceptedEvents defaults events, (sortKey event).isSome)
        ∧ (∀ event ∈ acceptedEvents defaults events, (qualifies qualifiedReadMs event).isSome)
        ∧ r = resultOf labelVersion labelWindowClosed
          (Lib.collected eventId (events.map (eventMapping defaults))).duplicates
          ((stableSort compareEvents (acceptedEvents defaults events)).foldl
            (advance labelVersion qualifiedReadMs v1AnyViewPositive) .empty)
          ((stableSort compareEvents (acceptedEvents defaults events)).map idText) := by
  have hneg : ¬ qualifiedReadMs ≤ 0 := by omega
  unfold deriveLabel acceptedEvents
  simp only [hneg, if_false]
  cases hcollect : collect eventId samePayload (events.map (eventMapping defaults)) with
  | error key =>
    have hconflict : Lib.Conflicting eventId samePayload (events.map (eventMapping defaults)) := by
      by_contra hno
      obtain ⟨c, hc⟩ := (Lib.collect_isOk_iff samePayload_refl).mpr hno
      simp [hcollect] at hc
    simp [hconflict]
  | ok kept =>
    obtain ⟨hno, rfl⟩ := (Lib.collect_eq_ok_iff samePayload_refl).mp hcollect
    simp only [hno, not_false_eq_true, true_and, Lib.except_bind_eq_ok, sort_eq_ok_iff,
      foldlM_round, Lib.except_pure_eq_ok]
    constructor
    · rintro ⟨sorted, ⟨hkeys, rfl⟩, t, ⟨hdurations, rfl⟩, rfl⟩
      refine ⟨hkeys, fun event h => hdurations event (Lib.mem_stableSort.mpr h), ?_⟩
      simp [resultOf]
    · rintro ⟨hkeys, hdurations, rfl⟩
      refine ⟨_, ⟨hkeys, rfl⟩, _, ⟨fun event h => hdurations event (Lib.mem_stableSort.mp h), rfl⟩, ?_⟩
      simp [resultOf]

/-- In v2 one round is one observation. -/
theorem advance_v2 (t : Tally) (event : Dict) :
    advance .v2 qualifiedReadMs v1AnyViewPositive t event
      = t.observe (evidence qualifiedReadMs event) := by
  unfold advance Tally.observe evidence
  simp

/-- **The v2 resolver** resolves the evidence of the accepted events. -/
theorem deriveLabel_v2_eq_ok_iff {events : List Event} {labelWindowClosed : Bool}
    {defaults : Dict} {r : LabelResult} (hpos : 0 < qualifiedReadMs) :
    deriveLabel events .v2 qualifiedReadMs labelWindowClosed defaults v1AnyViewPositive = .ok r ↔
      ¬ Lib.Conflicting eventId samePayload (events.map (eventMapping defaults))
        ∧ (∀ event ∈ acceptedEvents defaults events, (sortKey event).isSome)
        ∧ (∀ event ∈ acceptedEvents defaults events, (qualifies qualifiedReadMs event).isSome)
        ∧ r = resolve labelWindowClosed
          (Lib.collected eventId (events.map (eventMapping defaults))).duplicates
          ((stableSort compareEvents (acceptedEvents defaults events)).map fun event =>
            (evidence qualifiedReadMs event, idText event)) := by
  have htally : ∀ l : List Dict, l.foldl (advance .v2 qualifiedReadMs v1AnyViewPositive) .empty
      = tally (l.map (evidence qualifiedReadMs)) := by
    intro l
    rw [tally, List.foldl_map, funext₂ advance_v2]
  rw [deriveLabel_eq_ok_iff hpos, htally]
  simp [resultOf, resolve, semanticOf, candidatesOf, Function.comp_def]

end Loop

end Oecophylla.Label.Python
