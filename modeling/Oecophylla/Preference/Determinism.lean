import Oecophylla.Preference.Vector

namespace Oecophylla.Preference

open Lib (OrderedDict stableSort)

/-!
# The v2 preference vector and the order of the events

The events are sorted before they are replayed, and of the events that share an id the first one
counts.  The sort key has the time, the id, the post, the type and the topics of an event, but not
its impression, session, visit, duration and trigger, which the replay of a view or a dwell reads.

* `outline` — what the replay reads of an event; `loop_outline` — it reads nothing else;
* `find?_unique` — which event of an id is replayed;
* `Determined` — the events that may be replayed for an id have one outline;
* `map_outline_unique` — then the replay depends only on the set of events;
* `exists_perm_outline_ne` — otherwise some permutation is replayed differently.
-/

/-! ### What the replay reads -/

/-- An event without what only views and dwells are asked for. -/
def blank (event : PreferenceEvent) : PreferenceEvent :=
  { event with
    impressionId := none
    sessionId := none
    visitId := none
    dwellMs := none
    readTrigger := none }

/-- What the replay reads of an event. -/
def outline (qualifiedReadMs : Int) (event : PreferenceEvent) : PreferenceEvent :=
  if event.eventType = "view" ∨ event.eventType = "dwell" then
    match event.impressionId, event.visitId, event.sessionId with
    | some impressionId, _, _ =>
      if qualified qualifiedReadMs event then
        { blank event with impressionId := some impressionId, dwellMs := some qualifiedReadMs }
      else blank event
    | none, some visitId, sessionId =>
      if qualified qualifiedReadMs event then
        { blank event with visitId := some visitId, sessionId, dwellMs := some qualifiedReadMs }
      else blank event
    | none, none, none =>
      if qualified qualifiedReadMs event then { blank event with dwellMs := some qualifiedReadMs }
      else blank event
    | none, none, some sessionId =>
      { blank event with
        sessionId := some sessionId
        dwellMs := event.dwellMs
        readTrigger := if event.readTrigger = some "destroy" then some "destroy" else none }
  else blank event

section Outline

variable {qualifiedReadMs : Int}

/-- The fields of the sort key are kept. -/
theorem key_outline (qualifiedReadMs : Int) (event : PreferenceEvent) :
    (outline qualifiedReadMs event).eventId = event.eventId
      ∧ (outline qualifiedReadMs event).postId = event.postId
      ∧ (outline qualifiedReadMs event).eventType = event.eventType
      ∧ (outline qualifiedReadMs event).topics = event.topics
      ∧ (outline qualifiedReadMs event).occurredAt = event.occurredAt := by
  unfold outline blank
  split
  · split
    · split <;> exact ⟨rfl, rfl, rfl, rfl, rfl⟩
    · split <;> exact ⟨rfl, rfl, rfl, rfl, rfl⟩
    · split <;> exact ⟨rfl, rfl, rfl, rfl, rfl⟩
    · exact ⟨rfl, rfl, rfl, rfl, rfl⟩
  · exact ⟨rfl, rfl, rfl, rfl, rfl⟩

theorem eventId_outline (event : PreferenceEvent) :
    (outline qualifiedReadMs event).eventId = event.eventId := (key_outline _ event).1

theorem compareEvents_outline (a b : PreferenceEvent) :
    compareEvents (outline qualifiedReadMs a) (outline qualifiedReadMs b) = compareEvents a b := by
  obtain ⟨h₁, h₂, h₃, h₄, h₅⟩ := key_outline qualifiedReadMs a
  obtain ⟨k₁, k₂, k₃, k₄, k₅⟩ := key_outline qualifiedReadMs b
  simp only [compareEvents, Lib.compareBy, h₁, h₂, h₃, h₄, h₅, k₁, k₂, k₃, k₄, k₅]

/-- A replay whose events are only outlines. -/
def Replay.outline (qualifiedReadMs : Int) (s : Replay) : Replay :=
  { s with
    active := s.active.map (Prod.map id (Preference.outline qualifiedReadMs))
    additive := s.additive.map (Prod.map (Preference.outline qualifiedReadMs) id) }

theorem outline_add (s : Replay) (event : PreferenceEvent) (eventType : String) :
    (s.add event eventType).outline qualifiedReadMs
      = (s.outline qualifiedReadMs).add (outline qualifiedReadMs event) eventType := by
  simp [Replay.outline, Replay.add]

/-- A view or a dwell that is not asked for anything does nothing. -/
theorem timedRound_blank (s : Replay) (event : PreferenceEvent) :
    timedRound qualifiedReadMs s (blank event) = s := rfl

/-- A direct read is read from its outline. -/
theorem directRead_outline (s : Replay) {event : PreferenceEvent} {sessionId : String}
    (htimed : event.eventType = "view" ∨ event.eventType = "dwell")
    (himpression : event.impressionId = none) (hvisit : event.visitId = none)
    (hsession : event.sessionId = some sessionId) :
    directRead qualifiedReadMs (s.outline qualifiedReadMs) (outline qualifiedReadMs event) sessionId
      = (directRead qualifiedReadMs s event sessionId).outline qualifiedReadMs := by
  have houtline : outline qualifiedReadMs event
      = { blank event with
          sessionId := some sessionId
          dwellMs := event.dwellMs
          readTrigger := if event.readTrigger = some "destroy" then some "destroy" else none } := by
    unfold outline
    rw [if_pos htimed, himpression, hvisit, hsession]
  have hvisitOf : visitOf (s.outline qualifiedReadMs) (sessionId, event.postId)
        (outline qualifiedReadMs event)
      = visitOf s (sessionId, event.postId) event := by
    rw [houtline]
    rfl
  have hobserve : ∀ visit : DirectReadVisit,
      visit.observe (outline qualifiedReadMs event) = visit.observe event := by
    intro visit
    rw [houtline]
    rfl
  have hqualified : qualified qualifiedReadMs (outline qualifiedReadMs event)
      = qualified qualifiedReadMs event := by
    rw [houtline]
    rfl
  have htrigger : (outline qualifiedReadMs event).readTrigger = some "destroy"
      ↔ event.readTrigger = some "destroy" := by
    rw [houtline]
    dsimp only
    split <;> simp_all
  unfold directRead
  simp only [hvisitOf, hobserve, hqualified, htrigger, (key_outline qualifiedReadMs event).2.1]
  generalize (visitOf s (sessionId, event.postId) event).observe event = visit
  have hadd : (if (qualified qualifiedReadMs event && !visit.qualifiedCounted) = true
        then (s.outline qualifiedReadMs).add (outline qualifiedReadMs event) "qualified_read"
        else s.outline qualifiedReadMs)
      = (if (qualified qualifiedReadMs event && !visit.qualifiedCounted) = true
        then s.add event "qualified_read" else s).outline qualifiedReadMs := by
    split
    · rw [outline_add]
    · rfl
  rw [hadd]
  rfl

theorem timedRound_outline (s : Replay) {event : PreferenceEvent}
    (htimed : event.eventType = "view" ∨ event.eventType = "dwell") :
    timedRound qualifiedReadMs (s.outline qualifiedReadMs) (outline qualifiedReadMs event)
      = (timedRound qualifiedReadMs s event).outline qualifiedReadMs := by
  have hthreshold : ∀ e : PreferenceEvent, e.dwellMs = some qualifiedReadMs →
      qualified qualifiedReadMs e = true := by
    intro e he
    simp [qualified, he]
  have hadd : (s.add event "qualified_read").outline qualifiedReadMs
      = (s.outline qualifiedReadMs).add (outline qualifiedReadMs event) "qualified_read" :=
    outline_add s event "qualified_read"
  have hpost := (key_outline qualifiedReadMs event).2.1
  cases himpression : event.impressionId with
  | some impressionId =>
    rw [timedRound_impression himpression]
    by_cases hq : qualified qualifiedReadMs event = true
    · have hevent : outline qualifiedReadMs event = { blank event with
          impressionId := some impressionId
          dwellMs := some qualifiedReadMs } := by
        simp [outline, htimed, himpression, hq]
      have himpression' : (outline qualifiedReadMs event).impressionId = some impressionId := by
        rw [hevent]
      have hq' := hthreshold (outline qualifiedReadMs event) (by rw [hevent])
      rw [timedRound_impression himpression']
      simp only [hq, hq', true_and, ← hadd]
      show (if impressionId ∉ s.seenImpressionReads then _ else _) = _
      split <;> rfl
    · have hevent : outline qualifiedReadMs event = blank event := by
        simp [outline, htimed, himpression, hq]
      rw [hevent, timedRound_blank, if_neg fun h => hq h.1]
  | none =>
    cases hvisit : event.visitId with
    | some visitId =>
      rw [timedRound_visit himpression hvisit]
      by_cases hq : qualified qualifiedReadMs event = true
      · have hevent : outline qualifiedReadMs event = { blank event with
            visitId := some visitId
            sessionId := event.sessionId
            dwellMs := some qualifiedReadMs } := by
          simp [outline, htimed, himpression, hvisit, hq]
        have himpression' : (outline qualifiedReadMs event).impressionId = none := by
          rw [hevent]
          rfl
        have hvisit' : (outline qualifiedReadMs event).visitId = some visitId := by rw [hevent]
        have hsession' : (outline qualifiedReadMs event).sessionId = event.sessionId := by rw [hevent]
        have hq' := hthreshold (outline qualifiedReadMs event) (by rw [hevent])
        rw [timedRound_visit himpression' hvisit']
        simp only [hq, hq', true_and, ← hadd, hpost, hsession']
        show (if (event.sessionId, event.postId, visitId) ∉ s.seenVisitReads then _ else _) = _
        split <;> rfl
      · have hevent : outline qualifiedReadMs event = blank event := by
          simp [outline, htimed, himpression, hvisit, hq]
        rw [hevent, timedRound_blank, if_neg fun h => hq h.1]
    | none =>
      cases hsession : event.sessionId with
      | none =>
        rw [timedRound_loose himpression hvisit hsession]
        by_cases hq : qualified qualifiedReadMs event = true
        · have hevent : outline qualifiedReadMs event
              = { blank event with dwellMs := some qualifiedReadMs } := by
            simp [outline, htimed, himpression, hvisit, hsession, hq]
          have hidentity : (outline qualifiedReadMs event).impressionId = none
              ∧ (outline qualifiedReadMs event).visitId = none
              ∧ (outline qualifiedReadMs event).sessionId = none := by
            rw [hevent]
            exact ⟨rfl, rfl, rfl⟩
          have hq' := hthreshold (outline qualifiedReadMs event) (by rw [hevent])
          rw [timedRound_loose hidentity.1 hidentity.2.1 hidentity.2.2, if_pos hq, if_pos hq', hadd]
        · have hevent : outline qualifiedReadMs event = blank event := by
            simp [outline, htimed, himpression, hvisit, hsession, hq]
          rw [hevent, timedRound_blank, if_neg hq]
      | some sessionId =>
        have hidentity : (outline qualifiedReadMs event).impressionId = none
            ∧ (outline qualifiedReadMs event).visitId = none
            ∧ (outline qualifiedReadMs event).sessionId = some sessionId := by
          simp [outline, htimed, himpression, hvisit, hsession, blank]
        rw [timedRound_direct himpression hvisit hsession,
          timedRound_direct hidentity.1 hidentity.2.1 hidentity.2.2]
        exact directRead_outline s htimed himpression hvisit hsession

/-- **One round reads the outline of the event.** -/
theorem round_outline (s : Replay) (event : PreferenceEvent) :
    round qualifiedReadMs (s.outline qualifiedReadMs) (outline qualifiedReadMs event)
      = (round qualifiedReadMs s event).outline qualifiedReadMs := by
  obtain ⟨-, hpost, htype, -, -⟩ := key_outline qualifiedReadMs event
  unfold round
  rw [hpost, htype]
  by_cases htimed : event.eventType = "view" ∨ event.eventType = "dwell"
  · rw [if_pos htimed, if_pos htimed]
    exact timedRound_outline s htimed
  · rw [if_neg htimed, if_neg htimed]
    split
    · show { s.outline qualifiedReadMs with
        active := (s.outline qualifiedReadMs).active.set (event.postId, event.eventType)
          (outline qualifiedReadMs event) } = _
      unfold Replay.outline
      dsimp only
      rw [OrderedDict.map_set]
    · cases reversals event.eventType with
      | some reversedType =>
        unfold Replay.outline
        dsimp only
        rw [OrderedDict.map_pop]
      | none =>
        dsimp only
        split
        · exact (outline_add _ _ _).symm
        · rfl

/-- The replay reads the outlines of the events. -/
theorem loop_outline (events : List PreferenceEvent) :
    loop qualifiedReadMs (events.map (outline qualifiedReadMs))
      = (loop qualifiedReadMs events).outline qualifiedReadMs := by
  induction events using List.reverseRecOn with
  | nil => rfl
  | append_singleton events event ih =>
    unfold loop at *
    rw [List.map_append, List.foldl_append, ih, List.map_singleton, List.foldl_append]
    exact round_outline _ event

theorem contributions_outline (s : Replay) :
    contributions (s.outline qualifiedReadMs)
      = (contributions s).map (Prod.map (outline qualifiedReadMs) id) := by
  simp [contributions, Replay.outline, Function.comp_def, Prod.map]

end Outline

/-! ### Which event of an id is replayed -/

section Unique

variable {events : List PreferenceEvent} {referenceAt : Instant}

/-- The events that are eligible, in order. -/
theorem unique_eq (events : List PreferenceEvent) (referenceAt : Instant) :
    unique events referenceAt = Lib.newRows PreferenceEvent.eventId []
      (stableSort compareEvents (events.filter fun event => event.occurredAt ≤ referenceAt)) := by
  unfold unique
  rw [Lib.insertAllNew_eq, List.nil_append, Lib.filter_stableSort]

/-- Only eligible events are replayed. -/
theorem mem_unique {event : PreferenceEvent} (h : event ∈ unique events referenceAt) :
    event ∈ events ∧ event.occurredAt ≤ referenceAt := by
  rw [unique_eq] at h
  have hmem := Lib.mem_stableSort.mp (Lib.newRows_subset h)
  exact ⟨List.mem_of_mem_filter hmem, by simpa using (List.mem_filter.mp hmem).2⟩

/-- **The event of an id** is the first one in the order of the replay. -/
theorem find?_unique (id : String) :
    (unique events referenceAt).find? (fun event => decide (event.eventId = id))
      = Lib.firstLeast compareEvents (events.filter fun event =>
          decide (event.occurredAt ≤ referenceAt) && decide (event.eventId = id)) := by
  have hfree : ¬ Lib.Taken PreferenceEvent.eventId [] id := by simp [Lib.Taken]
  rw [unique_eq, Lib.find?_newRows, if_neg hfree, ← List.head?_filter, Lib.filter_stableSort,
    List.filter_filter, Lib.firstLeast]
  congr 3
  funext event
  exact Bool.and_comm _ _

/-- No two replayed events share an id. -/
theorem nodup_unique : ((unique events referenceAt).map PreferenceEvent.eventId).Nodup := by
  rw [unique_eq]
  exact Lib.nodup_newRows

/-- The replayed events are strictly sorted. -/
theorem pairwise_lt_unique :
    (unique events referenceAt).Pairwise fun a b => compareEvents a b = .lt := by
  have hsorted : (unique events referenceAt).Pairwise fun a b => (compareEvents a b).isLE = true := by
    rw [unique_eq]
    exact (Lib.pairwise_stableSort _ _).sublist Lib.newRows_sublist
  have hnodup : ((unique events referenceAt).map PreferenceEvent.eventId).Nodup := nodup_unique
  have hne := List.pairwise_map.mp hnodup
  refine (hsorted.and hne).imp ?_
  rintro a b ⟨hle, hid⟩
  have hneq := compareEvents_ne_eq hid
  cases hcompare : compareEvents a b <;> simp_all

/-- An event that may be replayed for its id: it is eligible, and no other eligible event of the id
    comes before it. -/
def First (events : List PreferenceEvent) (referenceAt : Instant) (event : PreferenceEvent) : Prop :=
  event ∈ events ∧ event.occurredAt ≤ referenceAt
    ∧ ∀ other ∈ events, other.occurredAt ≤ referenceAt → other.eventId = event.eventId →
      (compareEvents event other).isLE = true

/-- The events that may be replayed for an id are read alike. -/
def Determined (qualifiedReadMs : Int) (events : List PreferenceEvent) (referenceAt : Instant) :
    Prop :=
  ∀ a b, First events referenceAt a → First events referenceAt b → a.eventId = b.eventId →
    outline qualifiedReadMs a = outline qualifiedReadMs b

theorem find?_of_mem_unique {event : PreferenceEvent} (h : event ∈ unique events referenceAt) :
    (unique events referenceAt).find? (fun e => decide (e.eventId = event.eventId)) = some event := by
  rw [← List.head?_filter, Lib.filter_key_of_mem nodup_unique h]
  rfl

/-- What is replayed may be. -/
theorem first_of_mem_unique {event : PreferenceEvent} (h : event ∈ unique events referenceAt) :
    First events referenceAt event := by
  obtain ⟨hmem, heligible⟩ := mem_unique h
  refine ⟨hmem, heligible, fun other hother heligible' hid => ?_⟩
  have hfind := find?_of_mem_unique h
  rw [find?_unique] at hfind
  exact Lib.firstLeast_le hfind (List.mem_filter.mpr ⟨hother, by simp [heligible', hid]⟩)

/-- Every eligible id is replayed. -/
theorem exists_mem_unique {event : PreferenceEvent} (h : event ∈ events)
    (heligible : event.occurredAt ≤ referenceAt) :
    ∃ replayed ∈ unique events referenceAt, replayed.eventId = event.eventId := by
  have hmem : event ∈ events.filter fun e =>
      decide (e.occurredAt ≤ referenceAt) && decide (e.eventId = event.eventId) :=
    List.mem_filter.mpr ⟨h, by simp [heligible]⟩
  have hsome := Lib.firstLeast_isSome compareEvents hmem
  rw [← find?_unique] at hsome
  obtain ⟨replayed, hreplayed⟩ := Option.isSome_iff_exists.mp hsome
  exact ⟨replayed, List.mem_of_find?_eq_some hreplayed, by simpa using List.find?_some hreplayed⟩

variable {events' : List PreferenceEvent} {qualifiedReadMs : Int}

/-- A list with the same eligible events has the same candidates. -/
theorem first_congr (hsame : ∀ e : PreferenceEvent, e.occurredAt ≤ referenceAt →
      (e ∈ events ↔ e ∈ events')) {event : PreferenceEvent} :
    First events referenceAt event ↔ First events' referenceAt event := by
  unfold First
  constructor
  · rintro ⟨hmem, heligible, hfirst⟩
    exact ⟨(hsame event heligible).mp hmem, heligible,
      fun other ho he => hfirst other ((hsame other he).mpr ho) he⟩
  · rintro ⟨hmem, heligible, hfirst⟩
    exact ⟨(hsame event heligible).mpr hmem, heligible,
      fun other ho he => hfirst other ((hsame other he).mp ho) he⟩

/-- **The replay of a set.**  When the candidates of every id are read alike, two lists with the
    same eligible events are replayed alike. -/
theorem map_outline_unique (hdetermined : Determined qualifiedReadMs events referenceAt)
    (hsame : ∀ e : PreferenceEvent, e.occurredAt ≤ referenceAt → (e ∈ events ↔ e ∈ events')) :
    (unique events referenceAt).map (outline qualifiedReadMs)
      = (unique events' referenceAt).map (outline qualifiedReadMs) := by
  have hsorted : ∀ l : List PreferenceEvent, ((unique l referenceAt).map
      (outline qualifiedReadMs)).Pairwise fun a b => compareEvents a b = .lt := by
    intro l
    rw [List.pairwise_map]
    simp only [compareEvents_outline]
    exact pairwise_lt_unique
  have hnodup : ∀ l : List PreferenceEvent,
      ((unique l referenceAt).map (outline qualifiedReadMs)).Nodup := by
    intro l
    refine (hsorted l).imp ?_
    rintro a b hlt rfl
    have hself : compareEvents a a = .eq := Std.ReflCmp.compare_self
    rw [hself] at hlt
    contradiction
  -- every replayed event of one list is read like the one of its id in the other
  have hsubset : ∀ {l l' : List PreferenceEvent},
      (∀ e : PreferenceEvent, e.occurredAt ≤ referenceAt → (e ∈ l ↔ e ∈ l')) →
      Determined qualifiedReadMs l referenceAt →
      ∀ x ∈ (unique l referenceAt).map (outline qualifiedReadMs),
        x ∈ (unique l' referenceAt).map (outline qualifiedReadMs) := by
    intro l l' hsame hdetermined x hx
    obtain ⟨a, ha, rfl⟩ := List.mem_map.mp hx
    obtain ⟨hmem, heligible⟩ := mem_unique ha
    obtain ⟨b, hb, hid⟩ := exists_mem_unique ((hsame a heligible).mp hmem) heligible
    have hfirst := (first_congr hsame).mpr (first_of_mem_unique hb)
    rw [hdetermined a b (first_of_mem_unique ha) hfirst hid.symm]
    exact List.mem_map_of_mem hb
  have hsame' : ∀ e : PreferenceEvent, e.occurredAt ≤ referenceAt → (e ∈ events' ↔ e ∈ events) :=
    fun e he => (hsame e he).symm
  have hdetermined' : Determined qualifiedReadMs events' referenceAt := fun a b ha hb =>
    hdetermined a b ((first_congr hsame).mpr ha) ((first_congr hsame).mpr hb)
  have hperm := (List.perm_ext_iff_of_nodup (hnodup events) (hnodup events')).mpr fun x =>
    ⟨hsubset hsame hdetermined x, hsubset hsame' hdetermined' x⟩
  exact Lib.eq_of_perm_of_lt hperm (hsorted events) (hsorted events')

/-- Later events are never replayed. -/
theorem unique_congr
    (h : events.filter (fun e => e.occurredAt ≤ referenceAt)
      = events'.filter fun e => e.occurredAt ≤ referenceAt) :
    unique events referenceAt = unique events' referenceAt := by
  rw [unique_eq, unique_eq, h]

/-- **Where the candidates of an id are read differently**, the order of the list decides. -/
theorem exists_perm_outline_ne (h : ¬ Determined qualifiedReadMs events referenceAt) :
    ∃ events', events.Perm events'
      ∧ (unique events' referenceAt).map (outline qualifiedReadMs)
        ≠ (unique events referenceAt).map (outline qualifiedReadMs) := by
  unfold Determined at h
  push Not at h
  obtain ⟨a, b, ha, hb, hid, hne⟩ := h
  -- the candidate that is moved to the front is replayed
  have hfront : ∀ {c : PreferenceEvent}, First events referenceAt c →
      (unique (c :: events.erase c) referenceAt).find? (fun e => decide (e.eventId = c.eventId))
        = some c := by
    rintro c ⟨-, heligible, hfirst⟩
    have hc : (decide (c.occurredAt ≤ referenceAt) && decide (c.eventId = c.eventId)) = true := by
      simp [heligible]
    rw [find?_unique, List.filter_cons, if_pos hc]
    apply Lib.firstLeast_cons
    intro d hd
    obtain ⟨hmem, hd⟩ := List.mem_filter.mp hd
    simp only [Bool.and_eq_true, decide_eq_true_eq] at hd
    exact hfirst d (List.mem_of_mem_erase hmem) hd.1 hd.2
  have hfind : ∀ l : List PreferenceEvent, (l.map (outline qualifiedReadMs)).find?
        (fun e => decide (e.eventId = a.eventId))
      = (l.find? fun e => decide (e.eventId = a.eventId)).map (outline qualifiedReadMs) := by
    intro l
    rw [List.find?_map]
    simp only [Function.comp_def, eventId_outline]
  by_contra hall
  push Not at hall
  have hfrontA := congrArg (List.find? fun e => decide (e.eventId = a.eventId))
    (hall _ (List.perm_cons_erase ha.1))
  have hfrontB := congrArg (List.find? fun e => decide (e.eventId = a.eventId))
    (hall _ (List.perm_cons_erase hb.1))
  rw [hfind, hfront ha] at hfrontA
  rw [hfind, hid, hfront hb, ← hid, ← hfrontA] at hfrontB
  exact hne (Option.some.inj hfrontB).symm

end Unique

/-! ### The vector -/

section Vector

variable {exp2 : ℚ → ℚ} {events events' : List PreferenceEvent} {referenceAt : Option Instant}
  {now : Instant} {halfLifeHours channelBound : ℚ} {qualifiedReadMs : Int}

/-- The vector is a function of the outlines of the replayed events. -/
theorem buildPreferenceVectorV2_congr
    (hreference : referenceAtOf events referenceAt now = referenceAtOf events' referenceAt now)
    (hunique : (unique events (referenceAtOf events referenceAt now)).map (outline qualifiedReadMs)
      = (unique events' (referenceAtOf events' referenceAt now)).map (outline qualifiedReadMs)) :
    buildPreferenceVectorV2 exp2 events referenceAt now halfLifeHours channelBound qualifiedReadMs
      = buildPreferenceVectorV2 exp2 events' referenceAt now halfLifeHours channelBound
        qualifiedReadMs := by
  have hcontributions : (contributions (replay events referenceAt now qualifiedReadMs)).map
        (Prod.map (outline qualifiedReadMs) id)
      = (contributions (replay events' referenceAt now qualifiedReadMs)).map
        (Prod.map (outline qualifiedReadMs) id) := by
    rw [← contributions_outline, ← contributions_outline, replay, replay, ← loop_outline,
      ← loop_outline, hunique]
  have hchannels := fun reference => congrArg
    (channels exp2 halfLifeHours channelBound reference) hcontributions
  have htime := fun event => (key_outline qualifiedReadMs event).2.2.2.2
  have htopics := fun event => (key_outline qualifiedReadMs event).2.2.2.1
  simp only [channels_map htime htopics] at hchannels
  have hlength := congrArg List.length hcontributions
  rw [List.length_map, List.length_map] at hlength
  simp only [buildPreferenceVectorV2, hreference, hchannels, hlength]

/-- The last timestamp of a list is that of its set. -/
theorem referenceAtOf_congr (h : ∀ e, e ∈ events ↔ e ∈ events') :
    referenceAtOf events referenceAt now = referenceAtOf events' referenceAt now := by
  unfold referenceAtOf
  have hmax : (events.map PreferenceEvent.occurredAt).max?
      = (events'.map PreferenceEvent.occurredAt).max? := by
    apply Option.ext
    intro m
    rw [List.max?_eq_some_iff, List.max?_eq_some_iff]
    simp only [List.mem_map, h]
  rw [hmax]

/-- **The vector of a set of events.**  When the candidates of every id are read alike, the vector
    is the same for every permutation of the list and for additional copies; an explicit reference
    time makes later events irrelevant.  When they are not, some permutation of the list is
    replayed differently. -/
theorem buildPreferenceVectorV2_of_set (exp2 : ℚ → ℚ) (events : List PreferenceEvent)
    (referenceAt : Option Instant) (now : Instant) (halfLifeHours channelBound : ℚ)
    (qualifiedReadMs : Int) :
    (Determined qualifiedReadMs events (referenceAtOf events referenceAt now) →
      (∀ events', events.Perm events' →
        buildPreferenceVectorV2 exp2 events' referenceAt now halfLifeHours channelBound
            qualifiedReadMs
          = buildPreferenceVectorV2 exp2 events referenceAt now halfLifeHours channelBound
            qualifiedReadMs)
      ∧ ∀ copies, copies ⊆ events →
        buildPreferenceVectorV2 exp2 (events ++ copies) referenceAt now halfLifeHours channelBound
            qualifiedReadMs
          = buildPreferenceVectorV2 exp2 events referenceAt now halfLifeHours channelBound
            qualifiedReadMs)
    ∧ (∀ reference, referenceAt = some reference → ∀ events',
        events'.filter (fun e => e.occurredAt ≤ reference)
          = events.filter (fun e => e.occurredAt ≤ reference) →
        buildPreferenceVectorV2 exp2 events' referenceAt now halfLifeHours channelBound
            qualifiedReadMs
          = buildPreferenceVectorV2 exp2 events referenceAt now halfLifeHours channelBound
            qualifiedReadMs)
    ∧ (¬ Determined qualifiedReadMs events (referenceAtOf events referenceAt now) →
      ∃ events', events.Perm events'
        ∧ (unique events' (referenceAtOf events referenceAt now)).map (outline qualifiedReadMs)
          ≠ (unique events (referenceAtOf events referenceAt now)).map (outline qualifiedReadMs)) := by
  have hset : Determined qualifiedReadMs events (referenceAtOf events referenceAt now) →
      ∀ events', (∀ e, e ∈ events' ↔ e ∈ events) →
        buildPreferenceVectorV2 exp2 events' referenceAt now halfLifeHours channelBound
            qualifiedReadMs
          = buildPreferenceVectorV2 exp2 events referenceAt now halfLifeHours channelBound
            qualifiedReadMs := by
    intro hdetermined events' hsame
    have hreference : referenceAtOf events' referenceAt now = referenceAtOf events referenceAt now :=
      referenceAtOf_congr hsame
    apply buildPreferenceVectorV2_congr hreference
    rw [hreference]
    exact (map_outline_unique hdetermined fun e _ => (hsame e).symm).symm
  refine ⟨fun hdetermined => ⟨fun events' hperm => ?_, fun copies hcopies => ?_⟩, ?_,
    exists_perm_outline_ne⟩
  · exact hset hdetermined events' fun e => hperm.mem_iff.symm
  · apply hset hdetermined
    intro e
    rw [List.mem_append]
    exact ⟨fun h => h.elim id fun hc => hcopies hc, .inl⟩
  · rintro reference rfl events' hfilter
    have hreference : referenceAtOf events' (some reference) now
        = referenceAtOf events (some reference) now := rfl
    exact buildPreferenceVectorV2_congr hreference (congrArg _ (unique_congr hfilter))

end Vector

/-- An event of one post, with what the sort key does not have. -/
def tiedEvent (eventType : String) (sessionId : Option String) (dwellMs : Option Int) :
    PreferenceEvent :=
  ⟨"e", "p", eventType, ["topic"], 0, none, sessionId, none, dwellMs, none⟩

/-- Two likes that differ in their session are read alike. -/
theorem buildPreferenceVectorV2_of_set_like :
    buildPreferenceVectorV2 (fun _ => 1)
        [tiedEvent "like" (some "t") none, tiedEvent "like" (some "s") none] none 0 720 10 10000
      = buildPreferenceVectorV2 (fun _ => 1)
        [tiedEvent "like" (some "s") none, tiedEvent "like" (some "t") none] none 0 720 10 10000 := by
  have hread : ∀ e ∈ [tiedEvent "like" (some "s") none, tiedEvent "like" (some "t") none],
      outline 10000 e = tiedEvent "like" none none := by decide
  have h := buildPreferenceVectorV2_of_set (fun _ => 1)
    [tiedEvent "like" (some "s") none, tiedEvent "like" (some "t") none] none 0 720 10 10000
  exact (h.1 fun a b ha hb _ => (hread a ha.1).trans (hread b hb.1).symm).1 _ (List.Perm.swap _ _ _)

/-- A view that was read and one that was not, with one id, post, type, time and topics: the one
    that stands first in the list is counted. -/
theorem tied_views_order :
    (buildPreferenceVectorV2 (fun _ => 1)
        [tiedEvent "view" none (some 20000), tiedEvent "view" none none] none 0 720 10 10000).map
          PreferenceVectorV2.sourceEventCount = .ok 1
      ∧ (buildPreferenceVectorV2 (fun _ => 1)
        [tiedEvent "view" none none, tiedEvent "view" none (some 20000)] none 0 720 10 10000).map
          PreferenceVectorV2.sourceEventCount = .ok 0 := by
  decide

end Oecophylla.Preference
