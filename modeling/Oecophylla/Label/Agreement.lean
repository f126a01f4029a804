import Oecophylla.Label.Python
import Oecophylla.Label.Rust
import Oecophylla.Label.TypeScript

namespace Oecophylla.Label

open Oecophylla.Python (ofJson ofJsonFields)
open Lib (Conflicting collected stableSort LastTurnsOn)

/-!
# When the three resolvers agree

The resolvers get the same JSON events and the same defaults.  Each event list is reduced to
`firsts`, the first event of every id, and from there every resolver is `verdictOf` with an
order and a qualified-read test of its own.

* `WellFormed` — a v2 event;
* `python_eq`, `rust_eq`, `typescript_eq` — each resolver as `verdictOf`;
* `verdictOf_eq_iff` — when two orders and two tests give one verdict;
* `resolvers_agree_iff` — the three resolvers agree exactly when `AgreeWhen` holds.
-/

/-! ### Well-formed events -/

/-- A fraction and an offset: `[.f…](Z|z|±hh:mm)`. -/
def rfc3339Tail (cs : List Char) : Bool :=
  let zone := match cs with
    | '.' :: rest => if (rest.takeWhile Char.isDigit).isEmpty then [] else rest.dropWhile Char.isDigit
    | _ => cs
  match zone with
  | ['Z'] | ['z'] => true
  | [sign, h, h', ':', m, m'] =>
    (sign == '+' || sign == '-') && [h, h', m, m'].all Char.isDigit
  | _ => false

/-- The grammar of RFC 3339 timestamps. -/
def rfc3339 (s : String) : Bool :=
  match s.toList with
  | y :: y' :: y'' :: y''' :: '-' :: m :: m' :: '-' :: d :: d' :: t :: h :: h' :: ':' :: n :: n'
      :: ':' :: c :: c' :: tail =>
    [y, y', y'', y''', m, m', d, d', h, h', n, n', c, c'].all Char.isDigit
      && (t == 'T' || t == 't' || t == ' ') && rfc3339Tail tail
  | _ => false

/-- The fields that hold a duration. -/
def durationFields : List String := ["continuous_visible_ms", "dwell_ms"]

/-- A v2 event, after the defaults are merged.  (The metadata is arbitrary otherwise.) -/
structure WellFormed (m : Object) : Prop where
  eventId : ∃ s, m.get "event_id" = some (.str s)
  eventType : ∃ s ∈ eventTypes, m.get "event_type" = some (.str s)
  occurredAt : ∃ s, rfc3339 s = true ∧ m.get "occurred_at" = some (.str s)
  ingestedAt : ∃ s, rfc3339 s = true ∧ m.get "ingested_at" = some (.str s)
  duration : ∀ name ∈ durationFields, ∀ v ∈ m.get name, ∃ z, v = .int z
  metadataDuration : ∀ metadata, m.get "metadata" = some (.obj metadata) →
    ∀ name ∈ durationFields, ∀ v ∈ Object.get metadata name, ∃ z, v = .int z

/-- The id of an event. -/
def idOf (m : Object) : Option String := (m.get "event_id").bind Json.asStr

/-- The first event of every id. -/
def firsts (l : List Object) : List Object := (collected idOf l).unique

/-! ### What each resolver does with the first events -/

/-- The order of the Python resolver. -/
def comparePython (a b : Object) : Ordering :=
  Python.compareEvents (ofJsonFields a) (ofJsonFields b)

/-- The test of the Python resolver. -/
def qualifiesPython (qualifiedReadMs : Int) (m : Object) : Bool :=
  Python.qualifies qualifiedReadMs (ofJsonFields m) == some true

/-- The threshold as the TypeScript resolver gets it: the nearest double. -/
def threshold (qualifiedReadMs : Int) : Int := Double.roundNat qualifiedReadMs.natAbs

/-- The Python resolver rejects a list: a duplicate conflicts, or a timestamp is refused by
    `datetime`. -/
def PythonRejects (l : List Object) : Prop :=
  Conflicting idOf (fun a b => Python.samePayload (ofJsonFields a) (ofJsonFields b)) l
    ∨ ∃ m ∈ firsts l, Python.sortKey (ofJsonFields m) = none

/-- The Rust resolver rejects a list. -/
def RustRejects (l : List Object) : Prop := Conflicting idOf Rust.samePayload l

/-- The TypeScript resolver rejects a list. -/
def TypeScriptRejects (localeCompare : String → String → Ordering) (l : List Object) : Prop :=
  Conflicting idOf (TypeScript.samePayload localeCompare) l

instance (l : List Object) : Decidable (PythonRejects l) :=
  inferInstanceAs (Decidable (Conflicting _ _ l ∨ ∃ m ∈ firsts l, _))

instance (l : List Object) : Decidable (RustRejects l) :=
  inferInstanceAs (Decidable (Conflicting _ _ l))

instance (localeCompare : String → String → Ordering) (l : List Object) :
    Decidable (TypeScriptRejects localeCompare l) :=
  inferInstanceAs (Decidable (Conflicting _ _ l))

/-- Two comparisons order two events alike. -/
def SameOrder (cmp cmp' : Object → Object → Ordering) (l : List Object) : Prop :=
  l.Pairwise fun a b => (cmp a b).isLE = (cmp' a b).isLE

/-- Two tests agree on whether there is a qualified read. -/
def SameQualified (q q' : Object → Bool) (l : List Object) : Prop :=
  (∃ m ∈ l, q m = true) ↔ ∃ m ∈ l, q' m = true

/-- An outcome above a qualified read: a report, a comment, or an action whose last
    transition activates it. -/
def Decided (cmp : Object → Object → Ordering) (l : List Object) : Prop :=
  (∃ m ∈ l, Rust.text m "event_type" = "report" ∨ Rust.text m "event_type" = "comment")
    ∨ ∃ a, LastTurnsOn (fun m => effectOn a (Rust.text m "event_type")) cmp l

/-- **The condition.**  Either all three reject the list, or none does, the three orders agree
    on the first events, and the three tests agree on whether there is a qualified read
    (unless an outcome above it decides). -/
def AgreeWhen (localeCompare : String → String → Ordering) (qualifiedReadMs : Int)
    (l : List Object) : Prop :=
  (PythonRejects l ∧ RustRejects l ∧ TypeScriptRejects localeCompare l)
    ∨ (¬ PythonRejects l ∧ ¬ RustRejects l ∧ ¬ TypeScriptRejects localeCompare l)
      ∧ (SameOrder Rust.compareEvents comparePython (firsts l)
        ∧ SameOrder Rust.compareEvents (TypeScript.compareEvents localeCompare) (firsts l))
      ∧ (Decided Rust.compareEvents (firsts l)
        ∨ SameQualified (Rust.qualifies qualifiedReadMs) (qualifiesPython qualifiedReadMs) (firsts l)
          ∧ SameQualified (Rust.qualifies qualifiedReadMs)
            (TypeScript.qualifies (threshold qualifiedReadMs)) (firsts l))

/-- The three results: all are errors, or all are one verdict. -/
def Agree (python : Except Python.Raised LabelResult) (rust : Except String Verdict)
    (typescript : Except String LabelResult) : Prop :=
  python.toOption.map LabelResult.toVerdict = rust.toOption
    ∧ rust.toOption = typescript.toOption.map LabelResult.toVerdict

/-- The verdict on a list of events, for an order and a test. -/
def verdictOf (labelWindowClosed : Bool) (duplicates : Nat) (cmp : Object → Object → Ordering)
    (q : Object → Bool) (l : List Object) : Verdict :=
  (resolve labelWindowClosed duplicates ((stableSort cmp l).map fun m =>
    (⟨Rust.text m "event_type", q m⟩, Rust.text m "event_id"))).toVerdict

/-! ### Two verdicts on one list -/

section Verdicts

variable {l : List Object} {cmp cmp' : Object → Object → Ordering} {q q' : Object → Bool}

/-- The evidence of the sorted list, for a test. -/
def evidenceOf (cmp : Object → Object → Ordering) (q : Object → Bool) (l : List Object) :
    List Evidence :=
  (stableSort cmp l).map fun m => ⟨Rust.text m "event_type", q m⟩

theorem exists_qualified_evidenceOf :
    (∃ e ∈ evidenceOf cmp q l, e.qualified = true) ↔ ∃ m ∈ l, q m = true := by
  simp [evidenceOf]

theorem outranked_evidenceOf_iff [Std.TransCmp cmp] (hne : l.Pairwise fun a b => cmp a b ≠ .eq) :
    Outranked (evidenceOf cmp q l) ↔ Decided cmp l := by
  have hactive : ∀ a, (tally (evidenceOf cmp q l)).active a = true ↔
      LastTurnsOn (fun m => effectOn a (Rust.text m "event_type")) cmp l := by
    intro a
    rw [active_tally, evidenceOf, Lib.settle_map]
    exact Lib.settle_stableSort_eq_true_iff hne
  have htype : ∀ ty, (∃ e ∈ evidenceOf cmp q l, e.eventType = ty) ↔
      ∃ m ∈ l, Rust.text m "event_type" = ty := by
    intro ty
    simp [evidenceOf]
  unfold Outranked Outcome Decided
  simp only [hactive, htype, and_or_left, exists_or]
  constructor
  · rintro ((h | h) | (h | h) | (h | h))
    · exact .inr ⟨_, h⟩
    · exact .inl (.inl h)
    · exact .inr ⟨_, h⟩
    · exact .inr ⟨_, h⟩
    · exact .inr ⟨_, h⟩
    · exact .inl (.inr h)
  · rintro ((h | h) | ⟨a, h⟩)
    · exact .inl (.inr h)
    · exact .inr (.inr (.inr h))
    · cases a with
      | hide => exact .inl (.inl h)
      | save => exact .inr (.inl (.inl h))
      | share => exact .inr (.inl (.inr h))
      | like => exact .inr (.inr (.inl h))

theorem verdictOf_eq_iff_sorted {closed : Bool} {d : Nat}
    (hnodup : (l.map fun m => Rust.text m "event_id").Nodup) :
    verdictOf closed d cmp q l = verdictOf closed d cmp' q' l ↔
      stableSort cmp l = stableSort cmp' l
        ∧ semanticOf closed (evidenceOf cmp q l) = semanticOf closed (evidenceOf cmp' q' l) := by
  rw [← Lib.map_stableSort_eq_iff hnodup]
  simp only [verdictOf, resolve, Verdict.mk.injEq, List.map_map, Function.comp_def,
    List.length_map, Lib.length_stableSort, true_and]
  constructor
  · rintro ⟨hsemantic, -, horder⟩
    exact ⟨horder, hsemantic⟩
  · rintro ⟨horder, hsemantic⟩
    exact ⟨hsemantic, congrArg trainingTarget hsemantic, horder⟩

/-- **Two verdicts.**  They are one exactly when the orders agree on the list, and the tests
    agree on whether there is a qualified read, or an outcome above it decides. -/
theorem verdictOf_eq_iff [Std.TransCmp cmp] [Std.TransCmp cmp'] {closed : Bool} {d : Nat}
    (hnodup : (l.map fun m => Rust.text m "event_id").Nodup)
    (hne : l.Pairwise fun a b => cmp a b ≠ .eq) :
    verdictOf closed d cmp q l = verdictOf closed d cmp' q' l ↔
      SameOrder cmp cmp' l ∧ (Decided cmp l ∨ SameQualified q q' l) := by
  rw [verdictOf_eq_iff_sorted hnodup, SameOrder, ← Lib.stableSort_eq_iff]
  refine and_congr_right fun hsort => ?_
  have htypes : (evidenceOf cmp q l).map (·.eventType) = (evidenceOf cmp' q' l).map (·.eventType) := by
    simp [evidenceOf, hsort]
  rw [semanticOf_eq_semanticOf_iff closed htypes, outranked_evidenceOf_iff hne,
    exists_qualified_evidenceOf, exists_qualified_evidenceOf, or_comm]
  exact Iff.rfl

end Verdicts

/-! ### A well-formed event, read by each language -/

namespace WellFormed

variable {m : Object} (hm : WellFormed m)

include hm

theorem idOf_isSome : (idOf m).isSome := by
  obtain ⟨s, hs⟩ := hm.eventId
  simp [idOf, hs, Json.asStr]

theorem pythonEventId : Python.eventId (ofJsonFields m) = idOf m := by
  obtain ⟨s, hs⟩ := hm.eventId
  simp [Python.eventId, idOf, Oecophylla.Python.get_ofJsonFields, hs, ofJson, Json.asStr,
    Oecophylla.Python.str]

theorem pythonIdText : Python.idText (ofJsonFields m) = Rust.text m "event_id" := by
  obtain ⟨s, hs⟩ := hm.eventId
  simp [Python.idText, Rust.text, Oecophylla.Python.get_ofJsonFields, hs, ofJson, Json.asStr,
    Oecophylla.Python.str]

theorem pythonEventType : Python.eventType (ofJsonFields m) = Rust.text m "event_type" := by
  obtain ⟨s, -, hs⟩ := hm.eventType
  simp [Python.eventType, Rust.text, Oecophylla.Python.get_ofJsonFields, hs, ofJson, Json.asStr,
    Oecophylla.Python.str]

theorem typeScriptText {name : String} (hname : name = "event_id" ∨ name = "event_type") :
    TypeScript.text m name = Rust.text m name := by
  have hstr : ∃ s, m.get name = some (.str s) := by
    rcases hname with rfl | rfl
    · exact hm.eventId
    · obtain ⟨s, -, hs⟩ := hm.eventType
      exact ⟨s, hs⟩
  obtain ⟨s, hs⟩ := hstr
  simp [TypeScript.text, TypeScript.field, Rust.text, hs, TypeScript.string, Json.asStr]

/-- The Python resolver finds an integer, or nothing. -/
theorem pythonValue {name : String} (hname : name ∈ durationFields) :
    Python.value (ofJsonFields m) name = .none
      ∨ ∃ z, Python.value (ofJsonFields m) name = .int z := by
  unfold Python.value
  rw [Oecophylla.Python.get_ofJsonFields, Oecophylla.Python.get_ofJsonFields]
  cases hget : m.get name with
  | some v =>
    obtain ⟨z, rfl⟩ := hm.duration name hname v hget
    exact .inr ⟨z, rfl⟩
  | none =>
    cases hmd : m.get "metadata" with
    | none => exact .inl rfl
    | some md =>
      cases md with
      | obj metadata =>
        simp only [Option.map_none, Option.map_some, ofJson]
        rw [Oecophylla.Python.get_ofJsonFields]
        cases hv : Object.get metadata name with
        | none => exact .inl rfl
        | some v =>
          obtain ⟨z, rfl⟩ := hm.metadataDuration metadata hmd name hname v hv
          exact .inr ⟨z, rfl⟩
      | _ => exact .inl rfl

/-- `int` does not raise on a well-formed event. -/
theorem pythonQualifies (qualifiedReadMs : Int) :
    (Python.qualifies qualifiedReadMs (ofJsonFields m)).isSome := by
  have hint : Python.duration (ofJsonFields m) = .none
      ∨ ∃ z, Python.duration (ofJsonFields m) = .int z := by
    have hfield : "continuous_visible_ms" ∈ durationFields := by simp [durationFields]
    unfold Python.duration
    rcases hm.pythonValue hfield with h | ⟨z, h⟩
    · rw [h]
      exact hm.pythonValue (by simp [durationFields])
    · rw [h]
      exact .inr ⟨z, rfl⟩
  unfold Python.qualifies
  by_cases htimed : timed (Python.eventType (ofJsonFields m)) = true
  · rcases hint with h | ⟨z, h⟩ <;> simp [htimed, h, Oecophylla.Python.int]
  · simp [htimed]

end WellFormed

/-! ### Each resolver as a verdict -/

section Resolvers

variable {events : List Object} {defaults : Object} {qualifiedReadMs : Int}
  {labelWindowClosed : Bool}

/-- The first events are well-formed events of the list. -/
theorem wellFormed_of_mem_firsts {l : List Object} (hwf : ∀ m ∈ l, WellFormed m) :
    ∀ m ∈ firsts l, WellFormed m := fun m hm => hwf m (Lib.mem_collected_unique hm).1

/-- Well-formed events all have ids, so the first events are all that is accepted. -/
theorem accepted_eq_firsts {l : List Object} (hwf : ∀ m ∈ l, WellFormed m) :
    (collected idOf l).accepted = firsts l := by
  have hnone := Lib.collected_anonymous fun m hm => (hwf m hm).idOf_isSome
  unfold Lib.Collected.accepted firsts
  rw [hnone, List.append_nil]

theorem rust_eq {l : List Object} (hl : events.map (Object.merge defaults) = l)
    (hpos : 0 < qualifiedReadMs) (hwf : ∀ m ∈ l, WellFormed m) :
    (Rust.deriveLabelV2 (events.map Json.obj) defaults qualifiedReadMs labelWindowClosed).toOption
      = if RustRejects l then none
        else some (verdictOf labelWindowClosed (collected idOf l).duplicates Rust.compareEvents
          (Rust.qualifies qualifiedReadMs) (firsts l)) := by
  apply Lib.toOption_eq_ite
  intro r
  rw [Rust.deriveLabelV2_eq_ok_iff hpos, Rust.acceptedEvents, hl]
  have haccepted : (collected Rust.eventId l).accepted = firsts l := accepted_eq_firsts hwf
  rw [haccepted]
  exact Iff.rfl

theorem typescript_eq {localeCompare : String → String → Ordering} {l : List Object}
    (hl : events.map (Object.merge defaults) = l) (hpos : 0 < qualifiedReadMs)
    (hi64 : qualifiedReadMs < 2 ^ 63) (hwf : ∀ m ∈ l, WellFormed m) :
    (TypeScript.deriveLabelV2 localeCompare events defaults (Double.ofInt qualifiedReadMs)
        labelWindowClosed).toOption.map LabelResult.toVerdict
      = if TypeScriptRejects localeCompare l then none
        else some (verdictOf labelWindowClosed (collected idOf l).duplicates
          (TypeScript.compareEvents localeCompare)
          (TypeScript.qualifies (threshold qualifiedReadMs)) (firsts l)) := by
  obtain ⟨hround, hof⟩ := Double.ofInt_of_pos hpos hi64
  have hthreshold : TypeScript.positiveInteger (Double.ofInt qualifiedReadMs)
      = some (threshold qualifiedReadMs) := by
    rw [hof]
    simp only [TypeScript.positiveInteger, threshold]
    rw [if_pos (by exact_mod_cast hround)]
  have haccepted : (collected TypeScript.eventId l).accepted = firsts l := accepted_eq_firsts hwf
  -- the texts of a well-formed event are the ones the Rust resolver reads
  have hread : (stableSort (TypeScript.compareEvents localeCompare) (firsts l)).map
        (fun m => (TypeScript.evidence (threshold qualifiedReadMs) m, TypeScript.text m "event_id"))
      = (stableSort (TypeScript.compareEvents localeCompare) (firsts l)).map fun m =>
        ((⟨Rust.text m "event_type", TypeScript.qualifies (threshold qualifiedReadMs) m⟩ : Evidence),
          Rust.text m "event_id") := by
    apply List.map_congr_left
    intro m hm
    have hwfm := wellFormed_of_mem_firsts hwf m (Lib.mem_stableSort.mp hm)
    rw [TypeScript.evidence, hwfm.typeScriptText (.inl rfl), hwfm.typeScriptText (.inr rfl)]
  rw [Lib.toOption_eq_ite fun r => TypeScript.deriveLabelV2_eq_ok_iff hthreshold,
    TypeScript.acceptedEvents, hl, haccepted, hread, apply_ite (Option.map _)]
  exact if_congr Iff.rfl rfl rfl

theorem python_eq {l : List Object} {v1AnyViewPositive : Bool}
    (hl : events.map (Object.merge defaults) = l) (hpos : 0 < qualifiedReadMs)
    (hwf : ∀ m ∈ l, WellFormed m) :
    (Python.deriveLabel (events.map fun event => .mapping (ofJsonFields event)) .v2 qualifiedReadMs
        labelWindowClosed (ofJsonFields defaults) v1AnyViewPositive).toOption.map
        LabelResult.toVerdict
      = if PythonRejects l then none
        else some (verdictOf labelWindowClosed (collected idOf l).duplicates comparePython
          (qualifiesPython qualifiedReadMs) (firsts l)) := by
  -- the dictionaries that are read are the merged objects
  have hexpanded : (events.map fun event => Python.Event.mapping (ofJsonFields event)).map
      (Python.eventMapping (ofJsonFields defaults)) = l.map ofJsonFields := by
    rw [← hl, List.map_map, List.map_map]
    apply List.map_congr_left
    intro event _
    exact (Oecophylla.Python.ofJsonFields_merge defaults event).symm
  have hkey : ∀ m ∈ l, Python.eventId (ofJsonFields m) = idOf m := fun m hm => (hwf m hm).pythonEventId
  have hcollected : collected Python.eventId (l.map ofJsonFields)
      = (collected idOf l).map ofJsonFields := by
    rw [Lib.collected_map, Lib.collected_congr hkey]
  have haccepted : ((collected idOf l).map ofJsonFields).accepted = (firsts l).map ofJsonFields := by
    rw [← accepted_eq_firsts hwf]
    simp [Lib.Collected.accepted, Lib.Collected.map]
  have hconflict : Conflicting Python.eventId Python.samePayload (l.map ofJsonFields) ↔
      Conflicting idOf (fun a b => Python.samePayload (ofJsonFields a) (ofJsonFields b)) l := by
    rw [Lib.conflicting_map, Lib.conflicting_congr hkey]
  have hwf' := wellFormed_of_mem_firsts hwf
  have hread : (stableSort Python.compareEvents ((firsts l).map ofJsonFields)).map
        (fun event => (Python.evidence qualifiedReadMs event, Python.idText event))
      = (stableSort comparePython (firsts l)).map fun m =>
        ((⟨Rust.text m "event_type", qualifiesPython qualifiedReadMs m⟩ : Evidence),
          Rust.text m "event_id") := by
    rw [Lib.stableSort_map, List.map_map]
    apply List.map_congr_left
    intro m hm
    have hwfm := hwf' m (Lib.mem_stableSort.mp hm)
    show (Python.evidence qualifiedReadMs (ofJsonFields m), Python.idText (ofJsonFields m)) = _
    rw [Python.evidence, hwfm.pythonEventType, hwfm.pythonIdText, qualifiesPython]
  have htimes : (∀ event ∈ (firsts l).map ofJsonFields, (Python.sortKey event).isSome) ↔
      ¬ ∃ m ∈ firsts l, Python.sortKey (ofJsonFields m) = none := by
    simp [Option.isSome_iff_ne_none]
  have hdurations : ∀ event ∈ (firsts l).map ofJsonFields,
      (Python.qualifies qualifiedReadMs event).isSome := by
    intro event hevent
    obtain ⟨m, hm, rfl⟩ := List.mem_map.mp hevent
    exact (hwf' m hm).pythonQualifies qualifiedReadMs
  have hok : (Python.deriveLabel (events.map fun event => .mapping (ofJsonFields event)) .v2
      qualifiedReadMs labelWindowClosed (ofJsonFields defaults) v1AnyViewPositive).toOption
      = if PythonRejects l then none
        else some (resolve labelWindowClosed (collected idOf l).duplicates
          ((stableSort comparePython (firsts l)).map fun m =>
            (⟨Rust.text m "event_type", qualifiesPython qualifiedReadMs m⟩,
              Rust.text m "event_id"))) := by
    apply Lib.toOption_eq_ite
    intro r
    rw [Python.deriveLabel_v2_eq_ok_iff hpos, Python.acceptedEvents, hexpanded, hcollected,
      haccepted, hconflict, htimes, hread]
    unfold PythonRejects
    rw [not_or]
    constructor
    · rintro ⟨hno, htime, -, rfl⟩
      exact ⟨⟨hno, htime⟩, rfl⟩
    · rintro ⟨⟨hno, htime⟩, rfl⟩
      exact ⟨hno, htime, hdurations, rfl⟩
  rw [hok, apply_ite (Option.map _)]
  rfl

/-- **The three resolvers.**  On every list of well-formed events they agree exactly when
    `AgreeWhen` holds. -/
theorem resolvers_agree_iff {localeCompare : String → String → Ordering}
    [Std.TransCmp localeCompare] {v1AnyViewPositive : Bool} (hpos : 0 < qualifiedReadMs)
    (hi64 : qualifiedReadMs < 2 ^ 63)
    (hwf : ∀ event ∈ events, WellFormed (Object.merge defaults event)) :
    Agree
        (Python.deriveLabel (events.map fun event => .mapping (ofJsonFields event)) .v2
          qualifiedReadMs labelWindowClosed (ofJsonFields defaults) v1AnyViewPositive)
        (Rust.deriveLabelV2 (events.map Json.obj) defaults qualifiedReadMs labelWindowClosed)
        (TypeScript.deriveLabelV2 localeCompare events defaults (Double.ofInt qualifiedReadMs)
          labelWindowClosed)
      ↔ AgreeWhen localeCompare qualifiedReadMs (events.map (Object.merge defaults)) := by
  generalize hl : events.map (Object.merge defaults) = l
  have hwfl : ∀ m ∈ l, WellFormed m := by
    rw [← hl]
    intro m hm
    obtain ⟨event, hevent, rfl⟩ := List.mem_map.mp hm
    exact hwf event hevent
  have hne := Rust.pairwise_compareEvents_ne (l := firsts l)
    (fun m hm => (wellFormed_of_mem_firsts hwfl m hm).idOf_isSome) (Lib.nodup_collected_keys l)
  have hnodup : ((firsts l).map fun m => Rust.text m "event_id").Nodup := by
    have hids : ((firsts l).map idOf).Nodup := Lib.nodup_collected_keys l
    have hsome : (firsts l).map idOf = ((firsts l).map fun m => Rust.text m "event_id").map some := by
      rw [List.map_map]
      apply List.map_congr_left
      intro m hm
      obtain ⟨s, hs⟩ := (wellFormed_of_mem_firsts hwfl m hm).eventId
      simp [idOf, Rust.text, hs, Json.asStr]
    rw [hsome] at hids
    exact hids.of_map some
  have : Std.TransCmp comparePython :=
    inferInstanceAs (Std.TransCmp (Lib.compareBy Python.compareEvents ofJsonFields))
  unfold Agree AgreeWhen
  rw [python_eq hl hpos hwfl, rust_eq hl hpos hwfl, typescript_eq hl hpos hi64 hwfl]
  by_cases hp : PythonRejects l <;> by_cases hr : RustRejects l <;>
    by_cases ht : TypeScriptRejects localeCompare l <;>
    simp only [hp, hr, ht, if_true, if_false, not_true_eq_false, not_false_eq_true, reduceCtorEq,
      and_true, true_and, and_false, false_and, or_false, false_or, Option.some.injEq]
  -- nobody rejects: two comparisons of verdicts
  rw [eq_comm, verdictOf_eq_iff hnodup hne, verdictOf_eq_iff hnodup hne]
  tauto

end Resolvers

instance (python : Except Python.Raised LabelResult) (rust : Except String Verdict)
    (typescript : Except String LabelResult) : Decidable (Agree python rust typescript) :=
  inferInstanceAs (Decidable (_ = _ ∧ _ = _))

/-- An event with an id, a type and a timestamp. -/
private def eventAt (occurredAt id ty : String) : Object :=
  [("event_id", .str id), ("event_type", .str ty), ("occurred_at", .str occurredAt),
    ("ingested_at", .str "2026-08-30T01:01:00Z")]

private theorem wellFormed_eventAt {occurredAt ty : String} (id : String)
    (hat : rfc3339 occurredAt = true) (hty : ty ∈ eventTypes) :
    WellFormed (Object.merge [] (eventAt occurredAt id ty)) where
  eventId := ⟨id, rfl⟩
  eventType := ⟨ty, hty, rfl⟩
  occurredAt := ⟨occurredAt, hat, rfl⟩
  ingestedAt := ⟨"2026-08-30T01:01:00Z", by decide, rfl⟩
  duration := by
    intro name hname v hv
    simp only [durationFields, List.mem_cons, List.not_mem_nil, or_false] at hname
    have hnone : Object.get (Object.merge [] (eventAt occurredAt id ty)) name = none := by
      rcases hname with rfl | rfl <;> rfl
    simp [hnone] at hv
  metadataDuration := by
    intro metadata hmetadata
    have hnone : Object.get (Object.merge [] (eventAt occurredAt id ty)) "metadata" = none := rfl
    simp [hnone] at hmetadata

/-- An impression and a like a second later. -/
theorem resolvers_agree_seen :
    Agree
        (Python.deriveLabel ([eventAt "2026-08-30T01:00:00Z" "a" "visible",
          eventAt "2026-08-30T01:00:01Z" "b" "like"].map fun event => .mapping (ofJsonFields event))
          .v2 10000 true (ofJsonFields []) false)
        (Rust.deriveLabelV2 ([eventAt "2026-08-30T01:00:00Z" "a" "visible",
          eventAt "2026-08-30T01:00:01Z" "b" "like"].map Json.obj) [] 10000 true)
        (TypeScript.deriveLabelV2 compare [eventAt "2026-08-30T01:00:00Z" "a" "visible",
          eventAt "2026-08-30T01:00:01Z" "b" "like"] [] (Double.ofInt 10000) true)
      ↔ AgreeWhen compare 10000 ([eventAt "2026-08-30T01:00:00Z" "a" "visible",
          eventAt "2026-08-30T01:00:01Z" "b" "like"].map (Object.merge [])) :=
  resolvers_agree_iff (by decide) (by decide) (by
    intro event hevent
    simp only [List.mem_cons, List.not_mem_nil, or_false] at hevent
    rcases hevent with rfl | rfl <;> exact wellFormed_eventAt _ (by decide) (by decide))

/-- **Counterexample.**  A like, and its undoing half a second later.  `Z` sorts above `.`, so
    the Rust resolver sees the like last and answers a positive, while the Python resolver
    compares instants and answers a negative. -/
theorem resolvers_disagree_on_precision :
    (∀ event ∈ [eventAt "2026-08-30T01:00:00Z" "a" "like",
        eventAt "2026-08-30T01:00:00.500Z" "b" "unlike"], WellFormed (Object.merge [] event)) ∧
      ¬ Agree
        (Python.deriveLabel ([eventAt "2026-08-30T01:00:00Z" "a" "like",
          eventAt "2026-08-30T01:00:00.500Z" "b" "unlike"].map
            fun event => .mapping (ofJsonFields event)) .v2 10000 true (ofJsonFields []) false)
        (Rust.deriveLabelV2 ([eventAt "2026-08-30T01:00:00Z" "a" "like",
          eventAt "2026-08-30T01:00:00.500Z" "b" "unlike"].map Json.obj) [] 10000 true)
        (TypeScript.deriveLabelV2 compare [eventAt "2026-08-30T01:00:00Z" "a" "like",
          eventAt "2026-08-30T01:00:00.500Z" "b" "unlike"] [] (Double.ofInt 10000) true) := by
  refine ⟨?_, by decide⟩
  intro event hevent
  simp only [List.mem_cons, List.not_mem_nil, or_false] at hevent
  rcases hevent with rfl | rfl <;> exact wellFormed_eventAt _ (by decide) (by decide)

end Oecophylla.Label
