import Oecophylla.Label.Contract
import Oecophylla.Lib.OrderedDict
import Oecophylla.Lib.Table

namespace Oecophylla.Preference

open Lib (OrderedDict compareBy compareTriple stableSort)

/-!
# The v2 preference replay — `feature_store_worker/app/features.py`

`build_preference_vector_v2` sorts the canonical events of a user, drops repeated ids and
replays the rest; the contributions that are left over are then weighted by their age.  The
weights are floating point numbers and are not modelled: the model ends with the contributions.

* `CanonicalRow`, `canonicalPreferenceEvents` — the rows the worker reads and what it makes of
  them (`_canonical_preference_events` in `main.py`);
* `round`, `loop` — the replay of events that are already in order;
* `unique`, `contributions` — the whole function;
* `isSome_active_loop` — an action is active exactly when its switch is on;
* `contributions_of_post` — the contributions of a post come from the events of the post.
-/

/-- Microseconds since an epoch. -/
abbrev Instant := Int

/-- `PreferenceEvent`; its `occurred_at` is aware, as every `timestamptz` is that is read. -/
structure PreferenceEvent where
  eventId : String
  postId : String
  eventType : String
  topics : List String
  occurredAt : Instant
  impressionId : Option String
  sessionId : Option String
  visitId : Option String
  dwellMs : Option Int
  readTrigger : Option String
  deriving DecidableEq, Repr

/-- A row of the query over `behavior_events` and `posts`. -/
structure CanonicalRow where
  eventId : String
  postId : String
  impressionId : Option String
  sessionId : Option String
  eventType : String
  dwellMs : Option Int
  readTrigger : Option String
  visitId : Option String
  topicSnapshot : Option (List (Option String))
  occurredAt : Instant
  topics : Option (List (Option String))
  tags : Option (List (Option String))
  deriving DecidableEq, Repr

/-- `[text for text in texts if text]`. -/
def nonEmpty (texts : List (Option String)) : List String :=
  (texts.filterMap id).filter fun text => text ≠ ""

/-- The topics of a row: its snapshot, else what the post has now. -/
def topicsOf (row : CanonicalRow) : List String :=
  match row.topicSnapshot with
  | some snapshot => nonEmpty snapshot
  | none =>
    let topics := (nonEmpty (row.topics.getD [])).filter fun topic => topic ≠ "general"
    let tags := nonEmpty (row.tags.getD [])
    if topics ≠ [] then topics else if tags ≠ [] then tags else ["general"]

/-- One round of `_canonical_preference_events`. -/
def preferenceEvent (row : CanonicalRow) : PreferenceEvent where
  eventId := row.eventId
  postId := row.postId
  eventType := row.eventType
  topics := topicsOf row
  occurredAt := row.occurredAt
  impressionId := row.impressionId.filter fun text => text ≠ ""
  sessionId := row.sessionId.filter fun text => text ≠ ""
  visitId := row.visitId
  dwellMs := row.dwellMs
  readTrigger := row.readTrigger

/-- `_canonical_preference_events(rows)`. -/
def canonicalPreferenceEvents (rows : List CanonicalRow) : List PreferenceEvent :=
  rows.map preferenceEvent

/-! ### The replay -/

/-- `DIRECT_READ_VISIT_GAP`, one hour. -/
def directReadVisitGap : Int := 3600000000

/-- `STATEFUL_EVENTS`. -/
def statefulEvents : List String := ["like", "save", "share", "hide"]

/-- `REVERSALS`. -/
def reversals : String → Option String
  | "unlike" => some "like"
  | "unsave" => some "save"
  | "unshare" => some "share"
  | "unhide" => some "hide"
  | _ => none

/-- The event types of `CANONICAL_WEIGHTS`. -/
def canonicalWeights : List String :=
  ["click", "qualified_read", "like", "save", "share", "hide", "report", "comment"]

/-- `_DirectReadVisit`. -/
structure DirectReadVisit where
  lastEventAt : Instant
  qualifiedCounted : Bool
  viewSeen : Bool
  maxDwellMs : Int
  deriving DecidableEq, Repr

/-- The state of the loop. -/
structure Replay where
  active : OrderedDict (String × String) PreferenceEvent
  additive : List (PreferenceEvent × String)
  seenImpressionReads : List String
  seenVisitReads : List (Option String × String × String)
  directReadVisits : OrderedDict (String × String) DirectReadVisit
  deriving DecidableEq, Repr

/-- Before the loop. -/
def Replay.empty : Replay := ⟨[], [], [], [], []⟩

/-- `additive.append((event, event_type))`. -/
def Replay.add (s : Replay) (event : PreferenceEvent) (eventType : String) : Replay :=
  { s with additive := s.additive ++ [(event, eventType)] }

/-- `event.dwell_ms is not None and event.dwell_ms >= qualified_read_ms`. -/
def qualified (qualifiedReadMs : Int) (event : PreferenceEvent) : Bool :=
  event.dwellMs.any fun dwellMs => qualifiedReadMs ≤ dwellMs

/-- `_DirectReadVisit(last_event_at=occurred_at)`. -/
def DirectReadVisit.start (event : PreferenceEvent) : DirectReadVisit :=
  ⟨event.occurredAt, false, false, 0⟩

/-- Whether an event does not continue a visit. -/
def startsVisit (event : PreferenceEvent) (visit : DirectReadVisit) : Bool :=
  decide (directReadVisitGap < event.occurredAt - visit.lastEventAt)
    || (event.eventType == "view" && visit.viewSeen)
    || (event.eventType == "dwell" && event.dwellMs.any fun dwellMs => dwellMs < visit.maxDwellMs)

/-- The visit that an event belongs to. -/
def visitOf (s : Replay) (key : String × String) (event : PreferenceEvent) : DirectReadVisit :=
  match s.directReadVisits.get key with
  | none => .start event
  | some visit => if startsVisit event visit then .start event else visit

/-- A visit after an event, up to `qualified_counted`. -/
def DirectReadVisit.observe (visit : DirectReadVisit) (event : PreferenceEvent) : DirectReadVisit :=
  { visit with
    lastEventAt := event.occurredAt
    viewSeen := visit.viewSeen || event.eventType == "view"
    maxDwellMs := (event.dwellMs.map fun dwellMs => max visit.maxDwellMs dwellMs).getD
      visit.maxDwellMs }

/-- A view or a dwell with a session, outside of an impression and of a visit. -/
def directRead (qualifiedReadMs : Int) (s : Replay) (event : PreferenceEvent)
    (sessionId : String) : Replay :=
  let key := (sessionId, event.postId)
  let visit := (visitOf s key event).observe event
  let counts := qualified qualifiedReadMs event && !visit.qualifiedCounted
  let s := if counts then s.add event "qualified_read" else s
  let visit := { visit with qualifiedCounted := visit.qualifiedCounted || counts }
  let visits := s.directReadVisits.set key visit
  { s with
    directReadVisits := if event.readTrigger = some "destroy" then visits.pop key else visits }

/-- A view or a dwell. -/
def timedRound (qualifiedReadMs : Int) (s : Replay) (event : PreferenceEvent) : Replay :=
  match event.impressionId, event.visitId, event.sessionId with
  | some impressionId, _, _ =>
    if qualified qualifiedReadMs event ∧ impressionId ∉ s.seenImpressionReads then
      { s.add event "qualified_read" with
        seenImpressionReads := impressionId :: s.seenImpressionReads }
    else s
  | none, some visitId, sessionId =>
    let visitKey := (sessionId, event.postId, visitId)
    if qualified qualifiedReadMs event ∧ visitKey ∉ s.seenVisitReads then
      { s.add event "qualified_read" with seenVisitReads := visitKey :: s.seenVisitReads }
    else s
  | none, none, none =>
    -- no shared identity: every event is evidence of its own
    if qualified qualifiedReadMs event then s.add event "qualified_read" else s
  | none, none, some sessionId => directRead qualifiedReadMs s event sessionId

/-- One round of the loop. -/
def round (qualifiedReadMs : Int) (s : Replay) (event : PreferenceEvent) : Replay :=
  if event.eventType = "view" ∨ event.eventType = "dwell" then timedRound qualifiedReadMs s event
  else if event.eventType ∈ statefulEvents then
    { s with active := s.active.set (event.postId, event.eventType) event }
  else match reversals event.eventType with
    | some reversedType => { s with active := s.active.pop (event.postId, reversedType) }
    | none => if event.eventType ∈ canonicalWeights then s.add event event.eventType else s

/-- The loop. -/
def loop (qualifiedReadMs : Int) (events : List PreferenceEvent) : Replay :=
  events.foldl (round qualifiedReadMs) .empty

/-- The order of the replay. -/
def compareEvents : PreferenceEvent → PreferenceEvent → Ordering :=
  compareBy (compareTriple compare compare (compareTriple compare compare compare))
    fun event => (event.occurredAt, event.eventId, event.postId, event.eventType, event.topics)

instance : Std.TransCmp compareEvents :=
  inferInstanceAs (Std.TransCmp (compareBy _ _))

/-- `reference_at`, or the last timestamp, or the clock. -/
def referenceAtOf (events : List PreferenceEvent) (referenceAt : Option Instant) (now : Instant) :
    Instant :=
  referenceAt.getD ((events.map PreferenceEvent.occurredAt).max?.getD now)

/-- The events that are replayed, in order. -/
def unique (events : List PreferenceEvent) (referenceAt : Instant) : List PreferenceEvent :=
  Lib.insertAllNew PreferenceEvent.eventId [] <|
    (stableSort compareEvents events).filter fun event => event.occurredAt ≤ referenceAt

/-- `build_preference_vector_v2(events, …)` up to the end of its loop. -/
def replay (events : List PreferenceEvent) (referenceAt : Option Instant) (now : Instant)
    (qualifiedReadMs : Int) : Replay :=
  loop qualifiedReadMs (unique events (referenceAtOf events referenceAt now))

/-- The contributions that are weighted. -/
def contributions (s : Replay) : List (PreferenceEvent × String) :=
  s.additive ++ s.active.map fun entry => (entry.2, entry.1.2)

/-! ### Views and dwells -/

section Timed

variable {qualifiedReadMs : Int} {s : Replay} {event : PreferenceEvent}

/-- In an impression. -/
theorem timedRound_impression {impressionId : String}
    (himpression : event.impressionId = some impressionId) :
    timedRound qualifiedReadMs s event =
      if qualified qualifiedReadMs event ∧ impressionId ∉ s.seenImpressionReads then
        { s.add event "qualified_read" with
          seenImpressionReads := impressionId :: s.seenImpressionReads }
      else s := by
  unfold timedRound
  rw [himpression]

/-- In a visit outside of an impression. -/
theorem timedRound_visit {visitId : String} (himpression : event.impressionId = none)
    (hvisit : event.visitId = some visitId) :
    timedRound qualifiedReadMs s event =
      if qualified qualifiedReadMs event
          ∧ (event.sessionId, event.postId, visitId) ∉ s.seenVisitReads then
        { s.add event "qualified_read" with
          seenVisitReads := (event.sessionId, event.postId, visitId) :: s.seenVisitReads }
      else s := by
  unfold timedRound
  rw [himpression, hvisit]

/-- Without any identity. -/
theorem timedRound_loose (himpression : event.impressionId = none) (hvisit : event.visitId = none)
    (hsession : event.sessionId = none) :
    timedRound qualifiedReadMs s event =
      if qualified qualifiedReadMs event then s.add event "qualified_read" else s := by
  unfold timedRound
  rw [himpression, hvisit, hsession]

/-- With a session only. -/
theorem timedRound_direct {sessionId : String} (himpression : event.impressionId = none)
    (hvisit : event.visitId = none) (hsession : event.sessionId = some sessionId) :
    timedRound qualifiedReadMs s event = directRead qualifiedReadMs s event sessionId := by
  unfold timedRound
  rw [himpression, hvisit, hsession]

end Timed

/-! ### The events that are replayed -/

/-- Events with distinct ids are not tied. -/
theorem compareEvents_ne_eq {a b : PreferenceEvent} (h : a.eventId ≠ b.eventId) :
    compareEvents a b ≠ .eq := by
  unfold compareEvents compareBy compareTriple
  intro heq
  rw [Ordering.then_eq_eq, Ordering.then_eq_eq] at heq
  exact h (Std.LawfulEqCmp.eq_of_compare heq.2.1)

section Unique

variable {events : List PreferenceEvent} {now : Instant}

/-- No event is after the last one. -/
theorem occurredAt_le_referenceAtOf {event : PreferenceEvent} (h : event ∈ events) :
    event.occurredAt ≤ referenceAtOf events none now := by
  have hmem : event.occurredAt ∈ events.map PreferenceEvent.occurredAt := List.mem_map_of_mem h
  unfold referenceAtOf
  rw [Option.getD_none]
  cases hmax : (events.map PreferenceEvent.occurredAt).max? with
  | none =>
    rw [List.max?_eq_none_iff.mp hmax] at hmem
    contradiction
  | some m => exact (List.max?_eq_some_iff.mp hmax).2 _ hmem

/-- Without a reference time, events with distinct ids are all replayed. -/
theorem unique_eq_stableSort (hnodup : (events.map PreferenceEvent.eventId).Nodup) :
    unique events (referenceAtOf events none now) = stableSort compareEvents events := by
  have hall : (stableSort compareEvents events).filter
      (fun event => event.occurredAt ≤ referenceAtOf events none now)
      = stableSort compareEvents events := by
    apply List.filter_eq_self.mpr
    intro event hevent
    exact decide_eq_true (occurredAt_le_referenceAtOf (Lib.mem_stableSort.mp hevent))
  have hnodup' : ((stableSort compareEvents events).map PreferenceEvent.eventId).Nodup :=
    ((Lib.stableSort_perm compareEvents events).map _).nodup_iff.mpr hnodup
  unfold unique
  rw [hall, Lib.insertAllNew_eq, Lib.newRows_of_nodup hnodup', List.nil_append]
  apply List.filter_eq_self.mpr
  intro event _
  simp [Lib.Taken]

end Unique

/-! ### The actions -/

section Active

variable {qualifiedReadMs : Int}

/-- What an event type does to the action of a name. -/
def effectOn (name eventType : String) : Option Bool :=
  if eventType ∈ statefulEvents then (if eventType = name then some true else none)
  else if reversals eventType = some name then some false else none

/-- A view or a dwell leaves the actions alone. -/
theorem active_timedRound (s : Replay) (event : PreferenceEvent) :
    (timedRound qualifiedReadMs s event).active = s.active := by
  unfold timedRound directRead Replay.add
  split
  · split <;> rfl
  · dsimp only
    split <;> rfl
  · split <;> rfl
  · dsimp only
    split <;> rfl

/-- One round turns a switch on, off or leaves it alone. -/
theorem isSome_active_round (s : Replay) (event : PreferenceEvent) (postId name : String) :
    ((round qualifiedReadMs s event).active.get (postId, name)).isSome
      = (if event.postId = postId then effectOn name event.eventType else none).getD
          (s.active.get (postId, name)).isSome := by
  unfold round
  split
  · next htimed =>
    have hnone : effectOn name event.eventType = none := by
      rcases htimed with h | h <;> rw [h] <;> simp [effectOn, statefulEvents, reversals]
    rw [active_timedRound, hnone, ite_self, Option.getD_none]
  · unfold effectOn
    split
    · next hstateful =>
      rw [OrderedDict.get_set]
      by_cases hpost : event.postId = postId
      · by_cases hname : event.eventType = name
        · simp [hpost, hname]
        · have hne : ¬ name = event.eventType := fun h => hname h.symm
          simp [hpost, hname, hne]
      · have hne : ¬ postId = event.postId := fun h => hpost h.symm
        simp [hpost, hne]
    · cases hreversed : reversals event.eventType with
      | some reversedType =>
        rw [OrderedDict.get_pop]
        by_cases hpost : event.postId = postId
        · by_cases hname : reversedType = name
          · simp [hpost, hname]
          · have hne : ¬ name = reversedType := fun h => hname h.symm
            simp [hpost, hname, hne]
        · have hne : ¬ postId = event.postId := fun h => hpost h.symm
          simp [hpost, hne]
      | none =>
        have hkeep : (if event.eventType ∈ canonicalWeights then s.add event event.eventType
            else s).active = s.active := by
          split <;> rfl
        simp [hkeep]

/-- **An action is active exactly when its switch is on.** -/
theorem isSome_active_loop (events : List PreferenceEvent) (postId name : String) :
    ((loop qualifiedReadMs events).active.get (postId, name)).isSome
      = Lib.settle (fun event : PreferenceEvent =>
          if event.postId = postId then effectOn name event.eventType else none) events := by
  induction events using List.reverseRecOn with
  | nil => rfl
  | append_singleton events event ih =>
    have hlast : loop qualifiedReadMs (events ++ [event])
        = round qualifiedReadMs (loop qualifiedReadMs events) event := by
      simp [loop]
    rw [hlast, isSome_active_round, Lib.settle_append_singleton, ih]

end Active

/-! ### The events of one post -/

section Post

variable {qualifiedReadMs : Int} {postId : String} {own : String → Prop}

/-- An impression belongs to one post: `own` holds of those of the post. -/
def OwnImpression (own : String → Prop) (postId : String) (event : PreferenceEvent) : Prop :=
  ∀ impressionId ∈ event.impressionId, own impressionId ↔ event.postId = postId

/-- The replay of all events, seen from one post. -/
structure SeenFrom (own : String → Prop) (postId : String) (s t : Replay) : Prop where
  active : s.active.filter (fun entry => decide (entry.1.1 = postId)) = t.active
  keys : ∀ entry ∈ s.active, entry.1.1 = entry.2.postId
  additive : s.additive.filter (fun c => decide (c.1.postId = postId)) = t.additive
  impressions : ∀ impressionId, own impressionId →
    (impressionId ∈ s.seenImpressionReads ↔ impressionId ∈ t.seenImpressionReads)
  visits : ∀ sessionId visitId, (sessionId, postId, visitId) ∈ s.seenVisitReads
    ↔ (sessionId, postId, visitId) ∈ t.seenVisitReads
  direct : ∀ sessionId, s.directReadVisits.get (sessionId, postId)
    = t.directReadVisits.get (sessionId, postId)

theorem seenFrom_empty : SeenFrom own postId .empty .empty where
  active := rfl
  keys _ h := by contradiction
  additive := rfl
  impressions _ _ := Iff.rfl
  visits _ _ := Iff.rfl
  direct _ := rfl

variable {s t : Replay} {event : PreferenceEvent}

/-- A contribution of the post. -/
theorem seenFrom_add (h : SeenFrom own postId s t) (hpost : event.postId = postId)
    (eventType : String) : SeenFrom own postId (s.add event eventType) (t.add event eventType) where
  active := h.active
  keys := h.keys
  additive := by
    unfold Replay.add
    dsimp only
    rw [List.filter_append, h.additive, List.filter_cons_of_pos (by simpa using hpost),
      List.filter_nil]
  impressions := h.impressions
  visits := h.visits
  direct := h.direct

/-- A contribution of another post. -/
theorem seenFrom_add_other (h : SeenFrom own postId s t) (hpost : event.postId ≠ postId)
    (eventType : String) : SeenFrom own postId (s.add event eventType) t where
  active := h.active
  keys := h.keys
  additive := by
    unfold Replay.add
    dsimp only
    rw [List.filter_append, h.additive, List.filter_cons_of_neg (by simpa using hpost),
      List.filter_nil, List.append_nil]
  impressions := h.impressions
  visits := h.visits
  direct := h.direct

/-- A direct read of the post. -/
theorem seenFrom_directRead (h : SeenFrom own postId s t) (hpost : event.postId = postId)
    (sessionId : String) : SeenFrom own postId (directRead qualifiedReadMs s event sessionId)
      (directRead qualifiedReadMs t event sessionId) := by
  have hvisit : visitOf s (sessionId, event.postId) event = visitOf t (sessionId, event.postId) event := by
    unfold visitOf
    rw [hpost, h.direct]
  unfold directRead
  dsimp only
  rw [hvisit]
  generalize (visitOf t (sessionId, event.postId) event).observe event = visit
  -- the contribution, and then the visit
  have hadd : SeenFrom own postId
      (if (qualified qualifiedReadMs event && !visit.qualifiedCounted) = true
        then s.add event "qualified_read" else s)
      (if (qualified qualifiedReadMs event && !visit.qualifiedCounted) = true
        then t.add event "qualified_read" else t) := by
    split
    · exact seenFrom_add h hpost "qualified_read"
    · exact h
  refine ⟨hadd.active, hadd.keys, hadd.additive, hadd.impressions, hadd.visits, fun session => ?_⟩
  have hdirect := hadd.direct session
  dsimp only
  split
  · rw [OrderedDict.get_pop, OrderedDict.get_pop, OrderedDict.get_set, OrderedDict.get_set, hdirect]
  · rw [OrderedDict.get_set, OrderedDict.get_set, hdirect]

/-- A direct read of another post. -/
theorem seenFrom_directRead_other (h : SeenFrom own postId s t) (hpost : event.postId ≠ postId)
    (sessionId : String) : SeenFrom own postId (directRead qualifiedReadMs s event sessionId) t := by
  have hkey : ∀ session, ¬ (session, postId) = (sessionId, event.postId) := by
    intro session heq
    exact hpost (congrArg Prod.snd heq).symm
  unfold directRead
  dsimp only
  generalize (visitOf s (sessionId, event.postId) event).observe event = visit
  have hadd : SeenFrom own postId
      (if (qualified qualifiedReadMs event && !visit.qualifiedCounted) = true
        then s.add event "qualified_read" else s) t := by
    split
    · exact seenFrom_add_other h hpost "qualified_read"
    · exact h
  refine ⟨hadd.active, hadd.keys, hadd.additive, hadd.impressions, hadd.visits, fun session => ?_⟩
  have hdirect := hadd.direct session
  dsimp only
  split
  · rw [OrderedDict.get_pop, OrderedDict.get_set, if_neg (hkey session), if_neg (hkey session), hdirect]
  · rw [OrderedDict.get_set, if_neg (hkey session), hdirect]

/-- A view or a dwell of the post. -/
theorem seenFrom_timedRound (h : SeenFrom own postId s t) (hown : OwnImpression own postId event)
    (hpost : event.postId = postId) : SeenFrom own postId (timedRound qualifiedReadMs s event)
      (timedRound qualifiedReadMs t event) := by
  unfold timedRound
  split
  · next impressionId himpression =>
    have hseen := h.impressions impressionId ((hown impressionId himpression).mpr hpost)
    simp only [hseen]
    split
    · have hadd := seenFrom_add h hpost "qualified_read"
      refine ⟨hadd.active, hadd.keys, hadd.additive, fun i hi => ?_, hadd.visits, hadd.direct⟩
      simp only [List.mem_cons]
      exact or_congr_right (h.impressions i hi)
    · exact h
  · next visitId _ _ =>
    have hseen := h.visits event.sessionId visitId
    simp only [hpost, hseen]
    split
    · have hadd := seenFrom_add h hpost "qualified_read"
      refine ⟨hadd.active, hadd.keys, hadd.additive, hadd.impressions, fun session visit => ?_,
        hadd.direct⟩
      simp only [List.mem_cons]
      exact or_congr_right (h.visits session visit)
    · exact h
  · split
    · exact seenFrom_add h hpost "qualified_read"
    · exact h
  · next sessionId _ _ _ => exact seenFrom_directRead h hpost sessionId

/-- A view or a dwell of another post. -/
theorem seenFrom_timedRound_other (h : SeenFrom own postId s t)
    (hown : OwnImpression own postId event) (hpost : event.postId ≠ postId) :
    SeenFrom own postId (timedRound qualifiedReadMs s event) t := by
  unfold timedRound
  split
  · next impressionId himpression =>
    split
    · have hadd := seenFrom_add_other h hpost "qualified_read"
      refine ⟨hadd.active, hadd.keys, hadd.additive, fun i hi => ?_, hadd.visits, hadd.direct⟩
      -- the impression is one of the other post
      have hne : i ≠ impressionId := fun heq =>
        hpost ((hown impressionId himpression).mp (heq ▸ hi))
      simp only [List.mem_cons, hne, false_or]
      exact h.impressions i hi
    · exact h
  · next visitId _ _ =>
    dsimp only
    split
    · have hadd := seenFrom_add_other h hpost "qualified_read"
      refine ⟨hadd.active, hadd.keys, hadd.additive, hadd.impressions, fun session visit => ?_,
        hadd.direct⟩
      have hne : ¬ (session, postId, visit) = (event.sessionId, event.postId, visitId) := by
        intro heq
        exact hpost (Prod.mk.inj (Prod.mk.inj heq).2).1.symm
      simp only [List.mem_cons, hne, false_or]
      exact h.visits session visit
    · exact h
  · split
    · exact seenFrom_add_other h hpost "qualified_read"
    · exact h
  · next sessionId _ _ _ => exact seenFrom_directRead_other h hpost sessionId

/-- The actions of the post and the others, after setting an action. -/
theorem seenFrom_set (h : SeenFrom own postId s t) (hpost : event.postId = postId) (eventType : String) :
    SeenFrom own postId { s with active := s.active.set (event.postId, eventType) event }
      { t with active := t.active.set (event.postId, eventType) event } where
  active := by
    rw [OrderedDict.filter_set s.active (fun key => decide (key.1 = postId)),
      if_pos (by simpa using hpost), h.active]
  keys := by
    intro entry hentry
    rcases OrderedDict.mem_set hentry with hentry | rfl
    · exact h.keys entry hentry
    · rfl
  additive := h.additive
  impressions := h.impressions
  visits := h.visits
  direct := h.direct

theorem seenFrom_set_other (h : SeenFrom own postId s t) (hpost : event.postId ≠ postId)
    (eventType : String) :
    SeenFrom own postId { s with active := s.active.set (event.postId, eventType) event } t where
  active := by
    rw [OrderedDict.filter_set s.active (fun key => decide (key.1 = postId)),
      if_neg (by simpa using hpost), h.active]
  keys := by
    intro entry hentry
    rcases OrderedDict.mem_set hentry with hentry | rfl
    · exact h.keys entry hentry
    · rfl
  additive := h.additive
  impressions := h.impressions
  visits := h.visits
  direct := h.direct

theorem seenFrom_pop (h : SeenFrom own postId s t) (key : String × String) :
    SeenFrom own postId { s with active := s.active.pop key } { t with active := t.active.pop key } where
  active := by
    rw [OrderedDict.filter_pop s.active (fun key => decide (key.1 = postId)), h.active]
  keys entry hentry := h.keys entry (List.mem_of_mem_filter hentry)
  additive := h.additive
  impressions := h.impressions
  visits := h.visits
  direct := h.direct

theorem seenFrom_pop_other (h : SeenFrom own postId s t) {key : String × String}
    (hkey : key.1 ≠ postId) : SeenFrom own postId { s with active := s.active.pop key } t where
  active := by
    rw [OrderedDict.filter_pop s.active (fun key => decide (key.1 = postId)), h.active]
    -- no entry of the post has the key
    apply List.filter_eq_self.mpr
    intro entry hentry
    rw [← h.active] at hentry
    have hpost : entry.1.1 = postId := by simpa using (List.mem_filter.mp hentry).2
    exact decide_eq_true fun heq => hkey (heq ▸ hpost)
  keys entry hentry := h.keys entry (List.mem_of_mem_filter hentry)
  additive := h.additive
  impressions := h.impressions
  visits := h.visits
  direct := h.direct

/-- One round for an event of the post. -/
theorem seenFrom_round (h : SeenFrom own postId s t) (hown : OwnImpression own postId event)
    (hpost : event.postId = postId) :
    SeenFrom own postId (round qualifiedReadMs s event) (round qualifiedReadMs t event) := by
  unfold round
  split
  · exact seenFrom_timedRound h hown hpost
  · split
    · exact seenFrom_set h hpost event.eventType
    · cases reversals event.eventType with
      | some reversedType => exact seenFrom_pop h (event.postId, reversedType)
      | none =>
        dsimp only
        split
        · exact seenFrom_add h hpost event.eventType
        · exact h

/-- One round for an event of another post. -/
theorem seenFrom_round_other (h : SeenFrom own postId s t) (hown : OwnImpression own postId event)
    (hpost : event.postId ≠ postId) : SeenFrom own postId (round qualifiedReadMs s event) t := by
  unfold round
  split
  · exact seenFrom_timedRound_other h hown hpost
  · split
    · exact seenFrom_set_other h hpost event.eventType
    · cases reversals event.eventType with
      | some reversedType => exact seenFrom_pop_other h hpost
      | none =>
        dsimp only
        split
        · exact seenFrom_add_other h hpost event.eventType
        · exact h

/-- The loop over all events, seen from one post, is the loop over the events of the post. -/
theorem seenFrom_loop {events : List PreferenceEvent}
    (hown : ∀ event ∈ events, OwnImpression own postId event) :
    SeenFrom own postId (loop qualifiedReadMs events)
      (loop qualifiedReadMs (events.filter fun event => event.postId = postId)) := by
  induction events using List.reverseRecOn with
  | nil => exact seenFrom_empty
  | append_singleton events event ih =>
    have hlast : ∀ l : List PreferenceEvent, loop qualifiedReadMs (l ++ [event])
        = round qualifiedReadMs (loop qualifiedReadMs l) event := by
      intro l
      simp [loop]
    have ih' := ih fun e he => hown e (List.mem_append_left _ he)
    have hevent := hown event (by simp)
    rw [hlast, List.filter_append]
    by_cases hpost : event.postId = postId
    · rw [List.filter_cons_of_pos (by simpa using hpost), List.filter_nil, hlast]
      exact seenFrom_round ih' hevent hpost
    · rw [List.filter_cons_of_neg (by simpa using hpost), List.filter_nil, List.append_nil]
      exact seenFrom_round_other ih' hevent hpost

/-- The contributions of the post. -/
theorem contributions_of_seenFrom (h : SeenFrom own postId s t) :
    (contributions s).filter (fun c => decide (c.1.postId = postId)) = contributions t := by
  unfold contributions
  rw [List.filter_append, h.additive, List.filter_map, ← h.active]
  congr 2
  apply List.filter_congr
  intro entry hentry
  rw [Function.comp_apply, h.keys entry hentry]

/-- **The contributions of a post** come from the events of the post, when no impression is shared
    with another post. -/
theorem contributions_of_post {events : List PreferenceEvent} {now : Instant}
    (hids : (events.map PreferenceEvent.eventId).Nodup)
    (hown : ∀ event ∈ events, OwnImpression own postId event) :
    (contributions (replay events none now qualifiedReadMs)).filter
        (fun c => decide (c.1.postId = postId))
      = contributions (replay (events.filter fun event => event.postId = postId) none now
          qualifiedReadMs) := by
  have hidsPost : ((events.filter fun event => event.postId = postId).map
      PreferenceEvent.eventId).Nodup := hids.sublist (List.filter_sublist.map _)
  unfold replay
  rw [unique_eq_stableSort hids, unique_eq_stableSort hidsPost,
    ← Lib.filter_stableSort]
  exact contributions_of_seenFrom (seenFrom_loop fun event hevent =>
    hown event (Lib.mem_stableSort.mp hevent))

end Post

end Oecophylla.Preference
