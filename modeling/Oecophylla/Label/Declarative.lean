import Oecophylla.Label.Python

namespace Oecophylla.Label.Python

open Oecophylla.Python (Dict)
open Lib (stableSort LastTurnsOn)

/-!
# The declarative semantics of label v2

The contract says which labels are active in a list of events, and that the resolver returns
the active one of highest precedence.

* `ActionActive` — an action is active when its last transition, in the order of
  `(occurred_at, ingested_at, event_id)`, is an activating one;
* `Active` — the active labels; the plain labels need a visible impression;
* `deriveLabel_v2_declarative_iff` — the Python resolver returns the highest active label
  exactly when there is a visible impression or some other outcome is active.
-/

/-- A list that the contract admits: after the defaults are merged every event has an id of
    its own, and its timestamps and its duration can be read. -/
structure Admissible (qualifiedReadMs : Int) (l : List Dict) : Prop where
  identified : ∀ event ∈ l, (eventId event).isSome
  distinct : (l.map eventId).Nodup
  timestamps : ∀ event ∈ l, (sortKey event).isSome
  durations : ∀ event ∈ l, (qualifies qualifiedReadMs event).isSome

instance (qualifiedReadMs : Int) (l : List Dict) : Decidable (Admissible qualifiedReadMs l) :=
  decidable_of_iff
    ((∀ event ∈ l, (eventId event).isSome) ∧ (l.map eventId).Nodup
      ∧ (∀ event ∈ l, (sortKey event).isSome)
      ∧ ∀ event ∈ l, (qualifies qualifiedReadMs event).isSome)
    ⟨fun ⟨h₁, h₂, h₃, h₄⟩ => ⟨h₁, h₂, h₃, h₄⟩, fun ⟨h₁, h₂, h₃, h₄⟩ => ⟨h₁, h₂, h₃, h₄⟩⟩

/-- Some event of the list has the type. -/
def HasType (l : List Dict) (ty : String) : Prop := ∃ event ∈ l, eventType event = ty

/-- The last transition of the action is an activating one. -/
def ActionActive (l : List Dict) (a : Action) : Prop :=
  LastTurnsOn (fun event => effectOn a (eventType event)) compareEvents l

/-- A view or a dwell whose measured duration reaches the threshold. -/
def QualifiedRead (qualifiedReadMs : Int) (event : Dict) : Prop :=
  timed (eventType event) = true ∧
    ∃ ms ∈ Oecophylla.Python.int (duration event), qualifiedReadMs ≤ ms

/-- The active labels of a list of events. -/
def Active (qualifiedReadMs : Int) (labelWindowClosed : Bool) (l : List Dict) : Semantic → Prop
  | .strongNegative => ActionActive l .hide ∨ HasType l "report"
  | .strongPositive => ActionActive l .save ∨ ActionActive l .share
  | .positive => ActionActive l .like ∨ HasType l "comment"
  | .qualifiedRead => ∃ event ∈ l, QualifiedRead qualifiedReadMs event
  | .click => HasType l "click"
  | .negative => labelWindowClosed = true ∧ HasType l "visible"
  | .exposure => labelWindowClosed = false ∧ HasType l "visible"

/-- The list has a visible impression, or an outcome that does not need one. -/
def HasEvidence (qualifiedReadMs : Int) (l : List Dict) : Prop :=
  HasType l "visible"
    ∨ (HasType l "report" ∨ HasType l "comment" ∨ HasType l "click")
    ∨ (∃ event ∈ l, QualifiedRead qualifiedReadMs event)
    ∨ ∃ a, ActionActive l a

section Decidable

variable (qualifiedReadMs : Int) (labelWindowClosed : Bool) (l : List Dict)

instance (ty : String) : Decidable (HasType l ty) :=
  inferInstanceAs (Decidable (∃ event ∈ l, eventType event = ty))

instance (a : Action) : Decidable (ActionActive l a) :=
  inferInstanceAs (Decidable (LastTurnsOn _ compareEvents l))

instance (event : Dict) : Decidable (QualifiedRead qualifiedReadMs event) :=
  inferInstanceAs (Decidable (_ ∧ ∃ ms ∈ _, _))

instance (s : Semantic) : Decidable (Active qualifiedReadMs labelWindowClosed l s) := by
  cases s <;> (unfold Active; infer_instance)

end Decidable

/-! ### The contract's qualified reads -/

section QualifiedRead

variable {qualifiedReadMs : Int} {event : Dict}

theorem qualifies_eq_some_true_iff :
    qualifies qualifiedReadMs event = some true ↔ QualifiedRead qualifiedReadMs event := by
  unfold qualifies QualifiedRead
  by_cases htimed : timed (eventType event) = true
  · simp only [htimed, if_true, true_and]
    cases hd : duration event <;>
      simp [Oecophylla.Python.int, Option.mem_def]
  · simp [htimed]

end QualifiedRead

/-! ### The resolver against the semantics -/

section Resolver

variable {qualifiedReadMs : Int} {l : List Dict}

/-- Events with ids of their own are not tied. -/
theorem pairwise_compareEvents_ne (hkey : ∀ event ∈ l, (eventId event).isSome)
    (hnodup : (l.map eventId).Nodup) (htimes : ∀ event ∈ l, (sortKey event).isSome) :
    l.Pairwise fun a b => compareEvents a b ≠ .eq := by
  have hpair := List.pairwise_map.mp hnodup
  refine hpair.imp_of_mem ?_
  intro a b ha hb hab
  have hthird : ∀ event ∈ l, ((sortKey event).getD (0, 0, "")).2.2 = idText event := by
    intro event hevent
    obtain ⟨key, hk⟩ := Option.isSome_iff_exists.mp (htimes event hevent)
    rw [hk, Option.getD_some]
    unfold sortKey at hk
    simp only [Option.bind_eq_bind, Option.bind_eq_some_iff, Option.some.injEq] at hk
    obtain ⟨_, -, _, -, rfl⟩ := hk
    rfl
  apply Lib.compareTriple_ne_eq
  obtain ⟨i, hi⟩ := Option.isSome_iff_exists.mp (hkey a ha)
  obtain ⟨j, hj⟩ := Option.isSome_iff_exists.mp (hkey b hb)
  rw [hthird a ha, hthird b hb, idText_of_eventId hi, idText_of_eventId hj]
  intro hij
  rw [hi, hj, hij] at hab
  exact hab rfl

/-- The evidence of the sorted list has an active action where the list does. -/
theorem active_evidence_iff (hl : Admissible qualifiedReadMs l) (a : Action) :
    (tally ((stableSort compareEvents l).map (evidence qualifiedReadMs))).active a = true
      ↔ ActionActive l a := by
  have hne := pairwise_compareEvents_ne hl.identified hl.distinct hl.timestamps
  rw [active_tally, Lib.settle_map]
  exact Lib.settle_stableSort_eq_true_iff hne

theorem exists_evidence_type_iff (ty : String) :
    (∃ e ∈ (stableSort compareEvents l).map (evidence qualifiedReadMs), e.eventType = ty)
      ↔ HasType l ty := by
  simp [HasType, evidence]

theorem exists_evidence_qualified_iff :
    (∃ e ∈ (stableSort compareEvents l).map (evidence qualifiedReadMs), e.qualified = true)
      ↔ ∃ event ∈ l, QualifiedRead qualifiedReadMs event := by
  simp [evidence, ← qualifies_eq_some_true_iff]

/-- What the evidence of the sorted list carries is what is active in the list. -/
theorem outcome_evidence_iff (hl : Admissible qualifiedReadMs l) (labelWindowClosed : Bool)
    {s : Semantic} (hnegative : s ≠ .negative) (hexposure : s ≠ .exposure) :
    Outcome ((stableSort compareEvents l).map (evidence qualifiedReadMs)) s
      ↔ Active qualifiedReadMs labelWindowClosed l s := by
  cases s with
  | negative => exact absurd rfl hnegative
  | exposure => exact absurd rfl hexposure
  | strongNegative => exact or_congr (active_evidence_iff hl _) (exists_evidence_type_iff _)
  | strongPositive => exact or_congr (active_evidence_iff hl _) (active_evidence_iff hl _)
  | positive => exact or_congr (active_evidence_iff hl _) (exists_evidence_type_iff _)
  | qualifiedRead => exact exists_evidence_qualified_iff
  | click => exact exists_evidence_type_iff _

theorem exists_outcome_iff (hl : Admissible qualifiedReadMs l) :
    (∃ s, Outcome ((stableSort compareEvents l).map (evidence qualifiedReadMs)) s) ↔
      (HasType l "report" ∨ HasType l "comment" ∨ HasType l "click")
        ∨ (∃ event ∈ l, QualifiedRead qualifiedReadMs event) ∨ ∃ a, ActionActive l a := by
  constructor
  · rintro ⟨s, hs⟩
    cases s with
    | strongNegative =>
      rcases hs with hs | hs
      · exact .inr (.inr ⟨.hide, (active_evidence_iff hl _).mp hs⟩)
      · exact .inl (.inl ((exists_evidence_type_iff _).mp hs))
    | strongPositive =>
      rcases hs with hs | hs
      · exact .inr (.inr ⟨.save, (active_evidence_iff hl _).mp hs⟩)
      · exact .inr (.inr ⟨.share, (active_evidence_iff hl _).mp hs⟩)
    | positive =>
      rcases hs with hs | hs
      · exact .inr (.inr ⟨.like, (active_evidence_iff hl _).mp hs⟩)
      · exact .inl (.inr (.inl ((exists_evidence_type_iff _).mp hs)))
    | qualifiedRead => exact .inr (.inl (exists_evidence_qualified_iff.mp hs))
    | click => exact .inl (.inr (.inr ((exists_evidence_type_iff _).mp hs)))
    | negative => exact hs.elim
    | exposure => exact hs.elim
  · rintro ((h | h | h) | h | ⟨a, h⟩)
    · exact ⟨.strongNegative, .inr ((exists_evidence_type_iff _).mpr h)⟩
    · exact ⟨.positive, .inr ((exists_evidence_type_iff _).mpr h)⟩
    · exact ⟨.click, (exists_evidence_type_iff _).mpr h⟩
    · exact ⟨.qualifiedRead, exists_evidence_qualified_iff.mpr h⟩
    · have hactive := (active_evidence_iff hl a).mpr h
      cases a with
      | like => exact ⟨.positive, .inl hactive⟩
      | save => exact ⟨.strongPositive, .inl hactive⟩
      | share => exact ⟨.strongPositive, .inr hactive⟩
      | hide => exact ⟨.strongNegative, .inl hactive⟩

end Resolver

/-- **Label v2 against its declarative semantics.**  On every admissible list the resolver
    returns a label; it is the active label of highest precedence exactly when the list has
    a visible impression or an active outcome.  Otherwise it returns a plain label that is
    not active. -/
theorem deriveLabel_v2_declarative_iff {qualifiedReadMs : Int} {labelWindowClosed : Bool}
    {defaults : Dict} {events : List Event} {v1AnyViewPositive : Bool}
    (hpos : 0 < qualifiedReadMs)
    (hadmissible : Admissible qualifiedReadMs (events.map (eventMapping defaults))) :
    ∃ r, deriveLabel events .v2 qualifiedReadMs labelWindowClosed defaults v1AnyViewPositive
        = .ok r ∧
      (IsHighest (Active qualifiedReadMs labelWindowClosed (events.map (eventMapping defaults)))
        r.semantic ↔ HasEvidence qualifiedReadMs (events.map (eventMapping defaults))) := by
  generalize hl : events.map (eventMapping defaults) = l at hadmissible
  have hcollected : Lib.collected eventId l = ⟨l, [], 0⟩ :=
    Lib.collected_of_nodup hadmissible.identified hadmissible.distinct
  have haccepted : acceptedEvents defaults events = l := by
    unfold acceptedEvents
    rw [hl, hcollected]
    simp [Lib.Collected.accepted]
  have hno := Lib.not_conflicting_of_nodup samePayload_refl hadmissible.identified
    hadmissible.distinct
  refine ⟨_, (deriveLabel_v2_eq_ok_iff hpos).mpr ⟨hl ▸ hno, ?_, ?_, rfl⟩, ?_⟩
  · rw [haccepted]
    exact hadmissible.timestamps
  · rw [haccepted]
    exact hadmissible.durations
  · have hhighest : IsHighest (Active qualifiedReadMs labelWindowClosed l) (semanticOf
        labelWindowClosed ((stableSort compareEvents l).map (evidence qualifiedReadMs)))
        ↔ HasType l "visible" ∨
          ∃ s, Outcome ((stableSort compareEvents l).map (evidence qualifiedReadMs)) s :=
      isHighest_semanticOf_iff
        (fun s hn he => (outcome_evidence_iff hadmissible labelWindowClosed hn he).symm)
        Iff.rfl Iff.rfl
    rw [haccepted]
    simp only [resolve, List.map_map, Function.comp_def]
    rw [hhighest, exists_outcome_iff hadmissible]
    exact Iff.rfl

/-- An event with an id and a type at a second of one minute. -/
private def at0100 (second id ty : String) : Event :=
  .mapping [("event_id", .str id), ("event_type", .str ty),
    ("occurred_at", .str ("2026-08-30T01:00:" ++ second ++ "Z")),
    ("ingested_at", .str "2026-08-30T01:01:00Z")]

/-- A post was seen and liked. -/
theorem deriveLabel_v2_declarative_seen :
    ∃ r, deriveLabel [at0100 "00" "a" "visible", at0100 "01" "b" "like"] .v2 10000 true [] false
        = .ok r ∧
      (IsHighest (Active 10000 true
          ([at0100 "00" "a" "visible", at0100 "01" "b" "like"].map (eventMapping [])))
        r.semantic ↔ HasEvidence 10000
          ([at0100 "00" "a" "visible", at0100 "01" "b" "like"].map (eventMapping []))) :=
  deriveLabel_v2_declarative_iff (by decide) (by decide)

/-- **Counterexample.**  A like that is undone, without any impression, becomes a plain
    negative: `elif not candidates` adds the plain label although nothing was visible. -/
theorem deriveLabel_v2_undone_without_impression :
    Admissible 10000 ([at0100 "00" "a" "like", at0100 "01" "b" "unlike"].map (eventMapping [])) ∧
      ∃ r, deriveLabel [at0100 "00" "a" "like", at0100 "01" "b" "unlike"] .v2 10000 true [] false
          = .ok r ∧ r.semantic = .negative ∧
        ¬ IsHighest (Active 10000 true
          ([at0100 "00" "a" "like", at0100 "01" "b" "unlike"].map (eventMapping []))) r.semantic :=
  ⟨by decide, ⟨⟨.negative, some 0, 2, 0, ["a", "b"]⟩, [.like]⟩, by decide, rfl,
    fun h => absurd h.1 (by decide)⟩

end Oecophylla.Label.Python
