import Oecophylla.Preference.Determinism

namespace Oecophylla.Preference

open Lib (OrderedDict)
open Label (timed)

/-!
# What the v2 preference replay counts

* `round_additive` — what one round adds for good;
* `reads_once` — an identity that is seen once is counted once: its first qualified event;
* `visits`, `reads_ofDirect` — the visits of a session to a post, and the one read of each;
* `actions_eq` — an action contributes exactly while it is active;
* `mem_contributions` — nothing else contributes, and no reversal;
* `buildPreferenceVectorV2_invariants` — the contributions and channels of a vector.
-/

section Rounds

variable {qualifiedReadMs : Int}

private theorem lawfulBEq_visit : LawfulBEq (Option String × String × String) := inferInstance

attribute [local instance] lawfulBEq_visit

/-- Whether a view or a dwell is counted as a read. -/
def counted (qualifiedReadMs : Int) (s : Replay) (event : PreferenceEvent) : Bool :=
  qualified qualifiedReadMs event &&
    match event.impressionId, event.visitId, event.sessionId with
    | some impressionId, _, _ => !decide (impressionId ∈ s.seenImpressionReads)
    | none, some visitId, sessionId =>
      !decide ((sessionId, event.postId, visitId) ∈ s.seenVisitReads)
    | none, none, none => true
    | none, none, some sessionId =>
      !((visitOf s (sessionId, event.postId) event).observe event).qualifiedCounted

/-- The types that are added as they are. -/
def plainType (eventType : String) : Bool :=
  decide (eventType ∉ statefulEvents) && (reversals eventType).isNone
    && decide (eventType ∈ canonicalWeights)

/-- What a round adds for good. -/
def added (qualifiedReadMs : Int) (s : Replay) (event : PreferenceEvent) :
    List (PreferenceEvent × String) :=
  if timed event.eventType then
    if counted qualifiedReadMs s event then [(event, "qualified_read")] else []
  else if plainType event.eventType then [(event, event.eventType)] else []

theorem timed_iff (event : PreferenceEvent) :
    timed event.eventType = true ↔ event.eventType = "view" ∨ event.eventType = "dwell" := by
  simp [timed]

theorem additive_timedRound (s : Replay) (event : PreferenceEvent) :
    (timedRound qualifiedReadMs s event).additive
      = s.additive ++ if counted qualifiedReadMs s event then [(event, "qualified_read")] else [] := by
  unfold timedRound counted
  cases himpression : event.impressionId with
  | some impressionId =>
    by_cases hq : qualified qualifiedReadMs event = true <;>
      by_cases hseen : impressionId ∈ s.seenImpressionReads <;> simp [hq, hseen, Replay.add]
  | none =>
    cases hvisit : event.visitId with
    | some visitId =>
      by_cases hq : qualified qualifiedReadMs event = true <;>
        by_cases hseen : (event.sessionId, event.postId, visitId) ∈ s.seenVisitReads <;>
        simp [hq, hseen, Replay.add]
    | none =>
      cases hsession : event.sessionId with
      | none => by_cases hq : qualified qualifiedReadMs event = true <;> simp [hq, Replay.add]
      | some sessionId =>
        simp only [directRead]
        split <;> simp_all [Replay.add]

/-- **What one round adds for good.** -/
theorem round_additive (s : Replay) (event : PreferenceEvent) :
    (round qualifiedReadMs s event).additive = s.additive ++ added qualifiedReadMs s event := by
  unfold round added
  by_cases htimed : event.eventType = "view" ∨ event.eventType = "dwell"
  · rw [if_pos htimed, if_pos ((timed_iff event).mpr htimed), additive_timedRound]
  · rw [if_neg htimed, if_neg fun h => htimed ((timed_iff event).mp h)]
    by_cases hstateful : event.eventType ∈ statefulEvents
    · simp [hstateful, plainType]
    · rw [if_neg hstateful]
      cases hreversed : reversals event.eventType with
      | some reversedType => simp [hreversed, plainType]
      | none =>
        by_cases hweight : event.eventType ∈ canonicalWeights <;>
          simp [hreversed, hstateful, hweight, plainType, Replay.add]

theorem round_of_timed {event : PreferenceEvent} (s : Replay) (h : timed event.eventType = true) :
    round qualifiedReadMs s event = timedRound qualifiedReadMs s event :=
  if_pos ((timed_iff event).mp h)

/-- Other events leave the reads alone. -/
theorem seen_of_not_timed {event : PreferenceEvent} (s : Replay)
    (h : ¬ timed event.eventType = true) :
    (round qualifiedReadMs s event).seenImpressionReads = s.seenImpressionReads
      ∧ (round qualifiedReadMs s event).seenVisitReads = s.seenVisitReads
      ∧ (round qualifiedReadMs s event).directReadVisits = s.directReadVisits := by
  unfold round
  rw [if_neg fun ht => h ((timed_iff event).mpr ht)]
  split
  · exact ⟨rfl, rfl, rfl⟩
  · cases reversals event.eventType with
    | some reversedType => exact ⟨rfl, rfl, rfl⟩
    | none =>
      dsimp only
      split <;> exact ⟨rfl, rfl, rfl⟩

/-- Direct reads leave the impressions and the visits alone. -/
theorem seen_directRead (s : Replay) (event : PreferenceEvent) (sessionId : String) :
    (directRead qualifiedReadMs s event sessionId).seenImpressionReads = s.seenImpressionReads
      ∧ (directRead qualifiedReadMs s event sessionId).seenVisitReads = s.seenVisitReads := by
  simp only [directRead]
  split <;> exact ⟨rfl, rfl⟩

/-- The impressions that were read. -/
theorem mem_seenImpressionReads_round (s : Replay) (event : PreferenceEvent) (impressionId : String) :
    impressionId ∈ (round qualifiedReadMs s event).seenImpressionReads
      ↔ impressionId ∈ s.seenImpressionReads
        ∨ timed event.eventType = true ∧ event.impressionId = some impressionId
          ∧ qualified qualifiedReadMs event = true := by
  by_cases htimed : timed event.eventType = true
  · rw [round_of_timed s htimed]
    simp only [htimed, true_and]
    cases himpression : event.impressionId with
    | some own =>
      rw [timedRound_impression himpression]
      by_cases hq : qualified qualifiedReadMs event = true
      · by_cases hseen : own ∈ s.seenImpressionReads
        · rw [if_neg fun h => h.2 hseen]
          simp only [hq, and_true, Option.some.injEq]
          exact ⟨.inl, fun h => h.elim id fun heq => heq ▸ hseen⟩
        · rw [if_pos ⟨hq, hseen⟩]
          simp only [hq, and_true, List.mem_cons, Option.some.injEq]
          rw [or_comm, eq_comm]
      · rw [if_neg fun h => hq h.1]
        simp [hq]
    | none =>
      simp only [reduceCtorEq, false_and, or_false]
      cases hvisit : event.visitId with
      | some visitId =>
        rw [timedRound_visit himpression hvisit]
        split <;> exact Iff.rfl
      | none =>
        cases hsession : event.sessionId with
        | none =>
          rw [timedRound_loose himpression hvisit hsession]
          split <;> exact Iff.rfl
        | some sessionId =>
          rw [timedRound_direct himpression hvisit hsession, (seen_directRead s event sessionId).1]
  · rw [(seen_of_not_timed s htimed).1]
    simp [htimed]

/-- The visits that were read. -/
theorem mem_seenVisitReads_round (s : Replay) (event : PreferenceEvent)
    (key : Option String × String × String) :
    key ∈ (round qualifiedReadMs s event).seenVisitReads
      ↔ key ∈ s.seenVisitReads
        ∨ timed event.eventType = true ∧ (event.impressionId = none ∧ event.visitId = some key.2.2
          ∧ event.sessionId = key.1 ∧ event.postId = key.2.1)
          ∧ qualified qualifiedReadMs event = true := by
  by_cases htimed : timed event.eventType = true
  · rw [round_of_timed s htimed]
    simp only [htimed, true_and]
    cases himpression : event.impressionId with
    | some own =>
      rw [timedRound_impression himpression]
      simp only [reduceCtorEq, false_and, or_false]
      split <;> exact Iff.rfl
    | none =>
      cases hvisit : event.visitId with
      | some visitId =>
        rw [timedRound_visit himpression hvisit]
        obtain ⟨sessionId, postId, visit⟩ := key
        have hkey : (sessionId, postId, visit) = (event.sessionId, event.postId, visitId)
            ↔ some visitId = some visit ∧ event.sessionId = sessionId ∧ event.postId = postId := by
          simp only [Prod.mk.injEq, Option.some.injEq]
          constructor
          · rintro ⟨h₁, h₂, h₃⟩
            exact ⟨h₃.symm, h₁.symm, h₂.symm⟩
          · rintro ⟨h₁, h₂, h₃⟩
            exact ⟨h₂.symm, h₃.symm, h₁.symm⟩
        simp only [true_and, ← hkey]
        by_cases hq : qualified qualifiedReadMs event = true
        · by_cases hseen : (event.sessionId, event.postId, visitId) ∈ s.seenVisitReads
          · rw [if_neg fun h => h.2 hseen]
            simp only [hq, and_true]
            exact ⟨.inl, fun h => h.elim id fun heq => heq ▸ hseen⟩
          · rw [if_pos ⟨hq, hseen⟩]
            simp only [hq, and_true, List.mem_cons]
            exact or_comm
        · rw [if_neg fun h => hq h.1]
          simp [hq]
      | none =>
        simp only [reduceCtorEq, false_and, and_false, or_false]
        cases hsession : event.sessionId with
        | none =>
          rw [timedRound_loose himpression hvisit hsession]
          split <;> exact Iff.rfl
        | some sessionId =>
          rw [timedRound_direct himpression hvisit hsession, (seen_directRead s event sessionId).2]
  · rw [(seen_of_not_timed s htimed).2.1]
    simp [htimed]

theorem loop_append_singleton (events : List PreferenceEvent) (event : PreferenceEvent) :
    loop qualifiedReadMs (events ++ [event])
      = round qualifiedReadMs (loop qualifiedReadMs events) event := by
  simp [loop]

end Rounds

/-! ### Reads -/

/-- The qualified reads of the views and dwells that meet a condition. -/
def reads (left : List (PreferenceEvent × String)) (own : PreferenceEvent → Bool) :
    List PreferenceEvent :=
  (left.filter fun c => c.2 == "qualified_read" && timed c.1.eventType && own c.1).map Prod.fst

/-- A view or a dwell of an impression. -/
def ofImpression (impressionId : String) (event : PreferenceEvent) : Bool :=
  event.impressionId == some impressionId

/-- A view or a dwell of a visit, outside of impressions. -/
def ofVisit (sessionId : Option String) (postId visitId : String) (event : PreferenceEvent) : Bool :=
  event.impressionId == none && event.visitId == some visitId && event.sessionId == sessionId
    && event.postId == postId

/-- A direct view or dwell: outside of impressions and visits. -/
def ofDirect (sessionId postId : String) (event : PreferenceEvent) : Bool :=
  event.impressionId == none && event.visitId == none && event.sessionId == some sessionId
    && event.postId == postId

section Reads

variable {qualifiedReadMs : Int}

theorem reads_append (left left' : List (PreferenceEvent × String)) (own : PreferenceEvent → Bool) :
    reads (left ++ left') own = reads left own ++ reads left' own := by
  simp [reads]

theorem reads_added (s : Replay) (event : PreferenceEvent) (own : PreferenceEvent → Bool) :
    reads (added qualifiedReadMs s event) own
      = if timed event.eventType && own event && counted qualifiedReadMs s event then [event]
        else [] := by
  unfold added reads
  by_cases htimed : timed event.eventType = true
  · by_cases hcounted : counted qualifiedReadMs s event = true <;>
      by_cases hown : own event = true <;> simp [htimed, hcounted, hown]
  · by_cases hplain : plainType event.eventType = true <;> simp [htimed, hplain]

/-- **An identity that is seen once is counted once.**  Where an identity is seen exactly from its
    first qualified event on, and only counted before, its reads are that event. -/
theorem reads_once {own : PreferenceEvent → Bool} (seen : Replay → Prop)
    (hempty : ¬ seen .empty)
    (hround : ∀ s event, seen (round qualifiedReadMs s event)
      ↔ seen s ∨ timed event.eventType = true ∧ own event = true
        ∧ qualified qualifiedReadMs event = true)
    (hcounted : ∀ s event, own event = true →
      (counted qualifiedReadMs s event = true
        ↔ qualified qualifiedReadMs event = true ∧ ¬ seen s))
    (events : List PreferenceEvent) :
    reads (loop qualifiedReadMs events).additive own
      = (events.find? fun event => timed event.eventType && own event
          && qualified qualifiedReadMs event).toList := by
  have hboth : reads (loop qualifiedReadMs events).additive own
        = (events.find? fun event => timed event.eventType && own event
          && qualified qualifiedReadMs event).toList
      ∧ (seen (loop qualifiedReadMs events) ↔ (events.find? fun event => timed event.eventType
          && own event && qualified qualifiedReadMs event).isSome) := by
    induction events using List.reverseRecOn with
    | nil => exact ⟨rfl, by simpa [loop] using hempty⟩
    | append_singleton events event ih =>
      rw [loop_append_singleton, round_additive, reads_append, reads_added, hround, ih.1, ih.2,
        List.find?_append]
      by_cases hown : timed event.eventType = true ∧ own event = true
      · have hcount := hcounted (loop qualifiedReadMs events) event hown.2
        rw [ih.2] at hcount
        by_cases hq : qualified qualifiedReadMs event = true
        · cases hfind : events.find? fun event => timed event.eventType && own event
              && qualified qualifiedReadMs event with
          | none =>
            rw [hfind] at hcount
            have hc : counted qualifiedReadMs (loop qualifiedReadMs events) event = true :=
              hcount.mpr ⟨hq, by simp⟩
            simp [hown, hq, hc]
          | some first =>
            rw [hfind] at hcount
            have hc : counted qualifiedReadMs (loop qualifiedReadMs events) event = false := by
              rw [← Bool.not_eq_true, hcount]
              simp
            simp [hc]
        · have hc : counted qualifiedReadMs (loop qualifiedReadMs events) event = false := by
            rw [← Bool.not_eq_true, hcount]
            exact fun h => hq h.1
          simp [hq, hc]
      · have hskip : (timed event.eventType && own event) = false := by
          rw [← Bool.not_eq_true, Bool.and_eq_true]
          exact hown
        have hskip' : ¬ (timed event.eventType = true ∧ own event = true
            ∧ qualified qualifiedReadMs event = true) := fun h => hown ⟨h.1, h.2.1⟩
        simp [hskip, hskip']
  exact hboth.1

/-- **At most one read of an impression**: the first that qualifies. -/
theorem reads_ofImpression (impressionId : String) (events : List PreferenceEvent) :
    reads (loop qualifiedReadMs events).additive (ofImpression impressionId)
      = (events.find? fun event => timed event.eventType && ofImpression impressionId event
          && qualified qualifiedReadMs event).toList := by
  apply reads_once fun s => impressionId ∈ s.seenImpressionReads
  · simp [Replay.empty]
  · intro s event
    rw [mem_seenImpressionReads_round]
    simp [ofImpression]
  · intro s event hown
    have himpression : event.impressionId = some impressionId := by simpa [ofImpression] using hown
    simp [counted, himpression]

/-- **At most one read of a visit**: the first that qualifies. -/
theorem reads_ofVisit (sessionId : Option String) (postId visitId : String)
    (events : List PreferenceEvent) :
    reads (loop qualifiedReadMs events).additive (ofVisit sessionId postId visitId)
      = (events.find? fun event => timed event.eventType && ofVisit sessionId postId visitId event
          && qualified qualifiedReadMs event).toList := by
  apply reads_once fun s => (sessionId, postId, visitId) ∈ s.seenVisitReads
  · simp [Replay.empty]
  · intro s event
    rw [mem_seenVisitReads_round]
    simp [ofVisit, and_assoc]
  · intro s event hown
    obtain ⟨himpression, hvisit, hsession, hpost⟩ : event.impressionId = none
        ∧ event.visitId = some visitId ∧ event.sessionId = sessionId ∧ event.postId = postId := by
      simpa [ofVisit, and_assoc] using hown
    simp [counted, himpression, hvisit, hsession, hpost]

end Reads

/-! ### Direct visits -/

/-- What is recorded of the events of a visit. -/
def recordOf (qualifiedReadMs : Int) (visit : List PreferenceEvent) : DirectReadVisit where
  lastEventAt := (visit.getLast?.map PreferenceEvent.occurredAt).getD 0
  qualifiedCounted := visit.any (qualified qualifiedReadMs)
  viewSeen := visit.any fun event => event.eventType == "view"
  maxDwellMs := (visit.filterMap PreferenceEvent.dwellMs).foldl max 0

/-- The visits of a session to a post: those that are over, and the one that goes on. -/
structure Visits where
  closed : List (List PreferenceEvent)
  current : Option (List PreferenceEvent)

/-- What the visit of an event has had before: nothing when the event starts one, because more than
    an hour has passed, because it is a second view, or a dwell that is shorter than one before. -/
def Visits.before (v : Visits) (event : PreferenceEvent) : List PreferenceEvent :=
  match v.current with
  | none => []
  | some visit => if startsVisit event (recordOf 0 visit) then [] else visit

/-- The visits that are over when the event comes. -/
def Visits.over (v : Visits) (event : PreferenceEvent) : List (List PreferenceEvent) :=
  match v.current with
  | none => v.closed
  | some visit => if startsVisit event (recordOf 0 visit) then v.closed ++ [visit] else v.closed

/-- One more event; `destroy` ends its visit. -/
def Visits.step (v : Visits) (event : PreferenceEvent) : Visits :=
  if event.readTrigger = some "destroy" then ⟨v.over event ++ [v.before event ++ [event]], none⟩
  else ⟨v.over event, some (v.before event ++ [event])⟩

/-- The visits of a session to a post. -/
def visits (sessionId postId : String) (events : List PreferenceEvent) : Visits :=
  (events.filter fun event => timed event.eventType && ofDirect sessionId postId event).foldl
    Visits.step ⟨[], none⟩

/-- All of them. -/
def Visits.all (v : Visits) : List (List PreferenceEvent) := v.closed ++ v.current.toList

section Direct

variable {qualifiedReadMs : Int}

theorem recordOf_singleton (event : PreferenceEvent) :
    recordOf qualifiedReadMs [event] = { (DirectReadVisit.start event).observe event with
      qualifiedCounted := qualified qualifiedReadMs event } := by
  cases hdwell : event.dwellMs <;>
    simp [recordOf, DirectReadVisit.start, DirectReadVisit.observe, hdwell]

theorem recordOf_append (visit : List PreferenceEvent) (event : PreferenceEvent) :
    recordOf qualifiedReadMs (visit ++ [event])
      = { (recordOf qualifiedReadMs visit).observe event with
          qualifiedCounted := (recordOf qualifiedReadMs visit).qualifiedCounted
            || qualified qualifiedReadMs event } := by
  cases hdwell : event.dwellMs <;>
    simp [recordOf, DirectReadVisit.observe, hdwell]

/-- Whether a visit ends does not depend on what was counted. -/
theorem startsVisit_recordOf (event : PreferenceEvent) (visit : List PreferenceEvent) :
    startsVisit event (recordOf qualifiedReadMs visit) = startsVisit event (recordOf 0 visit) := rfl

/-- The first qualified events of the visits. -/
def firstReads (qualifiedReadMs : Int) (v : Visits) : List PreferenceEvent :=
  v.all.filterMap fun visit => visit.find? (qualified qualifiedReadMs)

/-- The event is added when it is the first read of its visit. -/
theorem firstReads_step (v : Visits) (event : PreferenceEvent) :
    firstReads qualifiedReadMs (v.step event)
      = firstReads qualifiedReadMs v ++
        if qualified qualifiedReadMs event && !(v.before event).any (qualified qualifiedReadMs)
        then [event] else [] := by
  have hall : (v.step event).all = v.over event ++ [v.before event ++ [event]] := by
    unfold Visits.step Visits.all
    split <;> simp
  have hold : firstReads qualifiedReadMs v
      = ((v.over event).filterMap fun visit => visit.find? (qualified qualifiedReadMs))
        ++ ((v.before event).find? (qualified qualifiedReadMs)).toList := by
    unfold firstReads Visits.all Visits.over Visits.before
    cases v.current with
    | none => simp
    | some visit =>
      dsimp only
      split <;> cases hfind : visit.find? (qualified qualifiedReadMs) <;>
        simp [List.filterMap_append, hfind]
  have hany : (v.before event).any (qualified qualifiedReadMs)
      = ((v.before event).find? (qualified qualifiedReadMs)).isSome := by
    rw [Bool.eq_iff_iff, List.find?_isSome, List.any_eq_true]
  rw [firstReads, hall, hold, hany, List.filterMap_append, List.append_assoc]
  congr 1
  by_cases hq : qualified qualifiedReadMs event = true <;>
    cases hfind : (v.before event).find? (qualified qualifiedReadMs) <;>
    simp [List.find?_append, hfind, hq]

/-- The visit after an event. -/
theorem current_step (v : Visits) (event : PreferenceEvent) :
    (v.step event).current = if event.readTrigger = some "destroy" then none
      else some (v.before event ++ [event]) := by
  unfold Visits.step
  split <;> rfl

/-- The record of the visit of an event, before and after it. -/
theorem visitOf_eq {s : Replay} {v : Visits} {key : String × String}
    (h : s.directReadVisits.get key = v.current.map (recordOf qualifiedReadMs))
    (event : PreferenceEvent) :
    (visitOf s key event).qualifiedCounted = (v.before event).any (qualified qualifiedReadMs)
      ∧ recordOf qualifiedReadMs (v.before event ++ [event])
        = { (visitOf s key event).observe event with
            qualifiedCounted := (visitOf s key event).qualifiedCounted
              || qualified qualifiedReadMs event } := by
  unfold visitOf Visits.before
  rw [h]
  cases v.current with
  | none => exact ⟨rfl, recordOf_singleton event⟩
  | some visit =>
    simp only [Option.map_some, startsVisit_recordOf]
    by_cases hstarts : startsVisit event (recordOf 0 visit) = true
    · simp only [hstarts, if_true]
      exact ⟨rfl, recordOf_singleton event⟩
    · simp only [hstarts]
      exact ⟨rfl, recordOf_append visit event⟩

theorem qualifiedCounted_observe (visit : DirectReadVisit) (event : PreferenceEvent) :
    (visit.observe event).qualifiedCounted = visit.qualifiedCounted := rfl

/-- A direct read moves its visit on. -/
theorem get_directRead {s : Replay} {v : Visits} {event : PreferenceEvent} {sessionId : String}
    (h : s.directReadVisits.get (sessionId, event.postId)
      = v.current.map (recordOf qualifiedReadMs)) :
    (directRead qualifiedReadMs s event sessionId).directReadVisits.get (sessionId, event.postId)
      = (v.step event).current.map (recordOf qualifiedReadMs) := by
  obtain ⟨-, hrecord⟩ := visitOf_eq h event
  have hcounted : ∀ a b : Bool, (a || (b && !a)) = (a || b) := by decide
  rw [current_step]
  unfold directRead
  simp only [qualifiedCounted_observe, hcounted]
  split
  · rw [OrderedDict.get_pop, if_pos rfl]
    rfl
  · rw [OrderedDict.get_set, if_pos rfl, Option.map_some, hrecord]

/-- The other visits stay. -/
theorem get_directRead_of_ne {s : Replay} {event : PreferenceEvent} {sessionId : String}
    {key : String × String} (hkey : key ≠ (sessionId, event.postId)) :
    (directRead qualifiedReadMs s event sessionId).directReadVisits.get key
      = s.directReadVisits.get key := by
  have hadd : ∀ c : Prop, [Decidable c] → (if c then s.add event "qualified_read" else s).directReadVisits
      = s.directReadVisits := by
    intro c _
    split <;> rfl
  unfold directRead
  simp only [hadd]
  split
  · rw [OrderedDict.get_pop, if_neg hkey, OrderedDict.get_set, if_neg hkey]
  · rw [OrderedDict.get_set, if_neg hkey]

/-- The visits of a session to a post change only with its direct views and dwells. -/
theorem get_round {s : Replay} {event : PreferenceEvent} {sessionId postId : String}
    (hother : ¬ (timed event.eventType && ofDirect sessionId postId event) = true) :
    (round qualifiedReadMs s event).directReadVisits.get (sessionId, postId)
      = s.directReadVisits.get (sessionId, postId) := by
  by_cases htimed : timed event.eventType = true
  · rw [round_of_timed s htimed]
    have hdirect : ¬ ofDirect sessionId postId event = true := fun h => hother (by simp [htimed, h])
    cases himpression : event.impressionId with
    | some impressionId =>
      rw [timedRound_impression himpression]
      split <;> rfl
    | none =>
      cases hvisit : event.visitId with
      | some visitId =>
        rw [timedRound_visit himpression hvisit]
        split <;> rfl
      | none =>
        cases hsession : event.sessionId with
        | none =>
          rw [timedRound_loose himpression hvisit hsession]
          split <;> rfl
        | some own =>
          rw [timedRound_direct himpression hvisit hsession]
          apply get_directRead_of_ne
          intro hkey
          obtain ⟨rfl, rfl⟩ := Prod.mk.inj hkey
          exact hdirect (by simp [ofDirect, himpression, hvisit, hsession])
  · rw [(seen_of_not_timed s htimed).2.2]

theorem visits_append_singleton (sessionId postId : String) (events : List PreferenceEvent)
    (event : PreferenceEvent) :
    visits sessionId postId (events ++ [event])
      = if timed event.eventType && ofDirect sessionId postId event
        then (visits sessionId postId events).step event else visits sessionId postId events := by
  unfold visits
  by_cases h : (timed event.eventType && ofDirect sessionId postId event) = true
  · rw [if_pos h, List.filter_append, List.foldl_append, List.filter_cons, if_pos h]
    rfl
  · rw [if_neg h, List.filter_append, List.foldl_append, List.filter_cons, if_neg h]
    rfl

/-- **At most one read of a direct visit**: the first that qualifies. -/
theorem reads_ofDirect (sessionId postId : String) (events : List PreferenceEvent) :
    reads (loop qualifiedReadMs events).additive (ofDirect sessionId postId)
      = firstReads qualifiedReadMs (visits sessionId postId events) := by
  have hboth : reads (loop qualifiedReadMs events).additive (ofDirect sessionId postId)
        = firstReads qualifiedReadMs (visits sessionId postId events)
      ∧ (loop qualifiedReadMs events).directReadVisits.get (sessionId, postId)
        = (visits sessionId postId events).current.map (recordOf qualifiedReadMs) := by
    induction events using List.reverseRecOn with
    | nil => exact ⟨rfl, rfl⟩
    | append_singleton events event ih =>
      rw [loop_append_singleton, round_additive, reads_append, reads_added,
        visits_append_singleton]
      by_cases hown : (timed event.eventType && ofDirect sessionId postId event) = true
      · obtain ⟨htimed, hdirect⟩ := (Bool.and_eq_true _ _).mp hown
        obtain ⟨himpression, hvisit, hsession, rfl⟩ : event.impressionId = none
            ∧ event.visitId = none ∧ event.sessionId = some sessionId ∧ event.postId = postId := by
          simpa [ofDirect, and_assoc] using hdirect
        have hcounted : counted qualifiedReadMs (loop qualifiedReadMs events) event
            = (qualified qualifiedReadMs event && !((visits sessionId event.postId events).before
              event).any (qualified qualifiedReadMs)) := by
          rw [← (visitOf_eq ih.2 event).1, ← qualifiedCounted_observe _ event]
          simp only [counted, himpression, hvisit, hsession]
        rw [if_pos hown, ih.1, firstReads_step, hown, Bool.true_and, hcounted,
          round_of_timed _ htimed, timedRound_direct himpression hvisit hsession]
        exact ⟨rfl, get_directRead ih.2⟩
      · rw [if_neg hown, get_round hown, ih.1, ih.2]
        simp [hown]
  exact hboth.1

end Direct

/-! ### Actions -/

/-- The contributions of an action on a post. -/
def ofAction (postId name : String) (c : PreferenceEvent × String) : Bool :=
  c.1.postId == postId && c.2 == name

/-- The actions are kept under their post and type. -/
structure ActiveKeys (s : Replay) : Prop where
  nodup : (s.active.map Prod.fst).Nodup
  entries : ∀ entry ∈ s.active,
    entry.1 = (entry.2.postId, entry.2.eventType) ∧ entry.2.eventType ∈ statefulEvents

/-- What was added for good: a view or a dwell that counts as a read, or an event of a plain type. -/
def Plain (c : PreferenceEvent × String) : Prop :=
  timed c.1.eventType = true ∧ c.2 = "qualified_read"
    ∨ plainType c.1.eventType = true ∧ c.2 = c.1.eventType

section Actions

variable {qualifiedReadMs : Int}

theorem plain_of_mem_added {s : Replay} {event : PreferenceEvent} {c : PreferenceEvent × String}
    (h : c ∈ added qualifiedReadMs s event) : Plain c := by
  unfold added at h
  split_ifs at h with htimed hcounted hplain
  · rw [List.mem_singleton.mp h]
    exact .inl ⟨htimed, rfl⟩
  · contradiction
  · rw [List.mem_singleton.mp h]
    exact .inr ⟨hplain, rfl⟩
  · contradiction

theorem plain_of_mem_additive {events : List PreferenceEvent} {c : PreferenceEvent × String}
    (h : c ∈ (loop qualifiedReadMs events).additive) : Plain c := by
  induction events using List.reverseRecOn with
  | nil => contradiction
  | append_singleton events event ih =>
    rw [loop_append_singleton, round_additive, List.mem_append] at h
    exact h.elim ih plain_of_mem_added

theorem activeKeys_round {s : Replay} (h : ActiveKeys s) (event : PreferenceEvent) :
    ActiveKeys (round qualifiedReadMs s event) := by
  unfold round
  split
  · have hsame : (timedRound qualifiedReadMs s event).active = s.active := active_timedRound s event
    exact ⟨hsame ▸ h.nodup, hsame ▸ h.entries⟩
  · split
    · next hstateful =>
      refine ⟨OrderedDict.nodup_set h.nodup _ _, fun entry hentry => ?_⟩
      rcases OrderedDict.mem_set hentry with hentry | rfl
      · exact h.entries entry hentry
      · exact ⟨rfl, hstateful⟩
    · cases reversals event.eventType with
      | some reversedType =>
        exact ⟨OrderedDict.nodup_pop h.nodup _, fun entry hentry =>
          h.entries entry (List.mem_of_mem_filter hentry)⟩
      | none =>
        dsimp only
        split <;> exact ⟨h.nodup, h.entries⟩

theorem activeKeys_loop (events : List PreferenceEvent) :
    ActiveKeys (loop qualifiedReadMs events) := by
  induction events using List.reverseRecOn with
  | nil => exact ⟨List.nodup_nil, fun _ h => nomatch h⟩
  | append_singleton events event ih =>
    rw [loop_append_singleton]
    exact activeKeys_round ih event

/-- What is not active and plain is not an action. -/
theorem Plain.not_stateful {c : PreferenceEvent × String} (h : Plain c) : c.2 ∉ statefulEvents := by
  rcases h with ⟨-, hread⟩ | ⟨hplain, htype⟩
  · rw [hread]
    decide
  · rw [htype]
    simp only [plainType, Bool.and_eq_true, decide_eq_true_eq] at hplain
    exact hplain.1.1

/-- **An action contributes exactly while it is active**, once. -/
theorem actions_eq (events : List PreferenceEvent) (postId : String) {name : String}
    (hname : name ∈ statefulEvents) :
    (contributions (loop qualifiedReadMs events)).filter (ofAction postId name)
      = ((loop qualifiedReadMs events).active.get (postId, name)).toList.map fun e => (e, name) := by
  have hkeys : ActiveKeys (loop qualifiedReadMs events) := activeKeys_loop events
  have hadditive : (loop qualifiedReadMs events).additive.filter (ofAction postId name) = [] := by
    apply List.filter_eq_nil_iff.mpr
    intro c hc hown
    simp only [ofAction, Bool.and_eq_true, beq_iff_eq] at hown
    exact (plain_of_mem_additive hc).not_stateful (hown.2 ▸ hname)
  have hactive : (loop qualifiedReadMs events).active.filter
        (fun entry => ofAction postId name (entry.2, entry.1.2))
      = (loop qualifiedReadMs events).active.filter fun entry => entry.1 = (postId, name) := by
    apply List.filter_congr
    intro entry hentry
    have hkey := (hkeys.entries entry hentry).1
    rw [Bool.eq_iff_iff]
    simp only [ofAction, Bool.and_eq_true, beq_iff_eq, decide_eq_true_eq, hkey, Prod.mk.injEq]
  unfold contributions
  rw [List.filter_append, hadditive, List.nil_append, List.filter_map]
  show List.map _ ((loop qualifiedReadMs events).active.filter
    fun entry => ofAction postId name (entry.2, entry.1.2)) = _
  rw [hactive, OrderedDict.filter_key hkeys.nodup, List.map_map]
  rfl

/-- **No reversal contributes**, and every contribution has a weight. -/
theorem mem_contributions {events : List PreferenceEvent} {c : PreferenceEvent × String}
    (h : c ∈ contributions (loop qualifiedReadMs events)) :
    c.2 ∈ canonicalWeights ∧ reversals c.1.eventType = none := by
  unfold contributions at h
  rcases List.mem_append.mp h with h | h
  · rcases plain_of_mem_additive h with ⟨htimed, hread⟩ | ⟨hplain, htype⟩
    · rw [hread]
      refine ⟨by decide, ?_⟩
      rcases (timed_iff c.1).mp htimed with hview | hdwell
      · rw [hview]; rfl
      · rw [hdwell]; rfl
    · simp only [plainType, Bool.and_eq_true, decide_eq_true_eq, Option.isNone_iff_eq_none] at hplain
      exact ⟨htype ▸ hplain.2, hplain.1.2⟩
  · obtain ⟨entry, hentry, rfl⟩ := List.mem_map.mp h
    obtain ⟨hkey, hstateful⟩ := (activeKeys_loop events).entries entry hentry
    have hall : ∀ name ∈ statefulEvents, name ∈ canonicalWeights ∧ reversals name = none := by
      decide
    rw [hkey]
    exact hall _ hstateful

/-- The reads are among what was added for good. -/
theorem reads_contributions (events : List PreferenceEvent) (own : PreferenceEvent → Bool) :
    reads (contributions (loop qualifiedReadMs events)) own
      = reads (loop qualifiedReadMs events).additive own := by
  have hactive : reads ((loop qualifiedReadMs events).active.map fun entry =>
      (entry.2, entry.1.2)) own = [] := by
    unfold reads
    rw [List.map_eq_nil_iff, List.filter_eq_nil_iff]
    intro c hc hread
    obtain ⟨entry, hentry, rfl⟩ := List.mem_map.mp hc
    obtain ⟨hkey, hstateful⟩ := (activeKeys_loop events).entries entry hentry
    have hno : ∀ name ∈ statefulEvents, name ≠ "qualified_read" := by decide
    simp only [Bool.and_eq_true, beq_iff_eq] at hread
    exact hno entry.1.2 (by rw [hkey]; exact hstateful) hread.1.1
  unfold contributions
  rw [reads_append, hactive, List.append_nil]

end Actions

/-! ### The vector -/

/-- **What a vector is made of.**  An impression is read at most once; so is a visit, and a direct
    visit, outside of impressions: by the first event that qualifies.  An action contributes once
    while its last transition turned it on, and nothing when it was undone.  The channels are in
    `[0, bound]`, and positive unless a share is rounded to zero, and every contribution is
    counted. -/
theorem buildPreferenceVectorV2_invariants {exp2 : ℚ → ℚ} {events : List PreferenceEvent}
    {referenceAt : Option Instant} {now : Instant} {halfLifeHours channelBound : ℚ}
    {qualifiedReadMs : Int} {v : PreferenceVectorV2}
    (h : buildPreferenceVectorV2 exp2 events referenceAt now halfLifeHours channelBound
      qualifiedReadMs = .ok v) :
    let reference := referenceAtOf events referenceAt now
    let replayed := unique events reference
    let left := contributions (loop qualifiedReadMs replayed)
    let c := channels exp2 halfLifeHours channelBound reference left
    (∀ impressionId, reads left (ofImpression impressionId)
      = (replayed.find? fun event => timed event.eventType && ofImpression impressionId event
          && qualified qualifiedReadMs event).toList)
    ∧ (∀ sessionId postId visitId, reads left (ofVisit sessionId postId visitId)
      = (replayed.find? fun event => timed event.eventType && ofVisit sessionId postId visitId event
          && qualified qualifiedReadMs event).toList)
    ∧ (∀ sessionId postId, reads left (ofDirect sessionId postId)
      = firstReads qualifiedReadMs (visits sessionId postId replayed))
    ∧ (∀ postId, ∀ name ∈ statefulEvents, (left.filter (ofAction postId name)).length ≤ 1
      ∧ (left.filter (ofAction postId name) ≠ [] ↔ Lib.LastTurnsOn (fun event : PreferenceEvent =>
          if event.postId = postId then effectOn name event.eventType else none) compareEvents
          replayed))
    ∧ (∀ contribution ∈ left,
      contribution.2 ∈ canonicalWeights ∧ reversals contribution.1.eventType = none)
    ∧ Bounded (NoUnderflow exp2 halfLifeHours reference left) channelBound c.positive
    ∧ Bounded (NoUnderflow exp2 halfLifeHours reference left) channelBound c.negative
    ∧ v = ⟨roundedChannel c.positive, roundedChannel c.negative, reference, left.length,
        preferenceSchemaV2⟩ := by
  unfold buildPreferenceVectorV2 at h
  split at h
  · contradiction
  · next hpositive =>
    have hbound : 0 < channelBound := lt_of_not_ge fun hle => hpositive (.inr hle)
    obtain ⟨hpos, hneg⟩ := bounded_channels exp2 halfLifeHours
      (referenceAtOf events referenceAt now) hbound
      (contributions (replay events referenceAt now qualifiedReadMs))
    refine ⟨fun impressionId => ?_, fun sessionId postId visitId => ?_, fun sessionId postId => ?_,
      fun postId name hname => ?_, fun contribution hc => mem_contributions hc, hpos, hneg,
      (Except.ok.inj h).symm⟩
    · rw [reads_contributions, reads_ofImpression]
    · rw [reads_contributions, reads_ofVisit]
    · rw [reads_contributions, reads_ofDirect]
    · rw [actions_eq _ _ hname, ← Lib.settle_eq_true_iff pairwise_lt_unique,
        ← isSome_active_loop]
      cases hget : (loop qualifiedReadMs (unique events (referenceAtOf events referenceAt now))).active.get
        (postId, name) <;> simp

/-- A read of one post in an impression or a visit. -/
def readEvent (eventId eventType : String) (impressionId visitId : Option String)
    (dwellMs : Option Int) : PreferenceEvent :=
  ⟨eventId, "p", eventType, ["topic"], 0, impressionId, some "s", visitId, dwellMs, none⟩

/-- The one read of an impression with two views. -/
theorem buildPreferenceVectorV2_invariants_views :
    reads (contributions (loop 10000 (unique
        [readEvent "a" "view" (some "i") none (some 20000),
          readEvent "b" "dwell" (some "i") none (some 30000)] 0))) (ofImpression "i")
      = [readEvent "a" "view" (some "i") none (some 20000)] := by
  have hok : ∃ v, buildPreferenceVectorV2 (fun _ => 1)
      [readEvent "a" "view" (some "i") none (some 20000),
        readEvent "b" "dwell" (some "i") none (some 30000)] (some 0) 0 720 10 10000 = .ok v :=
    ⟨_, rfl⟩
  obtain ⟨v, hv⟩ := hok
  refine ((buildPreferenceVectorV2_invariants hv).1 "i").trans ?_
  decide

/-- Events of the type `qualified_read` are added as they are, also twice for one impression; a
    visit that goes on in an impression is read once in it and once outside; and where `exp2` is
    rounded to zero so is the value of the channel. -/
theorem reads_twice_and_underflow :
    ((contributions (replay
        [readEvent "a" "qualified_read" (some "i") none none,
          readEvent "b" "qualified_read" (some "i") none none] none 0 10000)).filter
        (fun c => c.2 == "qualified_read" && c.1.impressionId == some "i")).length = 2
      ∧ ((contributions (replay
        [readEvent "a" "view" (some "i") (some "v") (some 20000),
          readEvent "b" "dwell" none (some "v") (some 20000)] none 0 10000)).filter
        (fun c => c.2 == "qualified_read" && c.1.visitId == some "v")).length = 2
      ∧ channels (fun x => if x < -1075 then 0 else 1) 1 10 (3600000000 * 1200)
        [(readEvent "a" "click" none none none, "click")] = ⟨[], [("topic", 0)]⟩ := by
  refine ⟨by decide, by decide, ?_⟩
  decide +kernel

end Oecophylla.Preference
