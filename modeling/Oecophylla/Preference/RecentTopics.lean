import Mathlib.Algebra.Field.Basic
import Mathlib.Algebra.Order.Field.Rat
import Mathlib.Data.List.Dedup
import Mathlib.Data.Rat.Cast.Defs
import Oecophylla.Lib.Latest
import Oecophylla.Preference.Replay

namespace Oecophylla.Preference.RecentTopics

open Lib (OrderedDict compareBy stableSort stableSort_eq_of_perm latestBy latestStep get_latestBy
  nodup_latestBy argmax_time_of_perm)

/-!
# Topics of the recent views — `feature_store_worker/app/recent_topics.py`

* `latestByPost`, `topicScores`, `rankedViewTopics` — the two loops and the final sort;
* `latestEvent` — the event that counts for a post: of its latest events the first supplied;
* `mem_topicScores`, `score_eq_sum` — the score of a topic, each post once;
* `rankedViewTopics_of_order` — orders that agree on these events give one list;
* `refreshTopics_perm` — the query of the worker has such an order.

Scores are exact numbers of a field `K`, and `exp2` is any function.
-/

/-- Microseconds of `WINDOW_DAYS`, three weeks. -/
def window : Int := 21 * 86400 * 1000000

/-- `MAX_TOPICS`. -/
def maxTopics : ℕ := 5

/-- `HALF_LIFE_DAYS`. -/
def halfLifeDays : ℕ := 7

/-- `latest_by_post` after the first loop. -/
def latestByPost (now : Instant) (events : List PreferenceEvent) :
    OrderedDict String PreferenceEvent :=
  events.foldl (fun latest event =>
    if event.eventType ∉ ["view", "dwell"] then latest
    else if ¬ (now - window ≤ event.occurredAt ∧ event.occurredAt ≤ now) then latest
    else
      match latest.get event.postId with
      | none => latest.set event.postId event
      | some previous =>
        if previous.occurredAt < event.occurredAt then latest.set event.postId event
        else latest) []

/-- `sorted({topic for topic in event.topics if topic and topic != "general"})`. -/
def eventTopics (event : PreferenceEvent) : List String :=
  stableSort compare
    (event.topics.filter fun topic => topic ≠ "" ∧ topic ≠ "general").dedup

section Scores

variable {K : Type} [Field K] [LinearOrder K] (exp2 : K → K)

/-- `age_days`. -/
def ageDays (now : Instant) (event : PreferenceEvent) : K :=
  ((now - event.occurredAt : Int) : K) / 1000000 / 86400

/-- `contribution`. -/
def contribution (now : Instant) (event : PreferenceEvent) : K :=
  exp2 (-ageDays now event / halfLifeDays) / (eventTopics event).length

/-- `scores` after the second loop. -/
def topicScores (now : Instant) (events : List PreferenceEvent) : OrderedDict String K :=
  (latestByPost now events).foldl (fun scores entry =>
    let event := entry.2
    let topics := eventTopics event
    if topics = [] then scores
    else topics.foldl (fun scores topic =>
      scores.set topic ((scores.get topic).getD 0 + contribution exp2 now event)) scores) []

/-- `scores[topic]`, of a topic that has one. -/
def score (now : Instant) (events : List PreferenceEvent) (topic : String) : K :=
  ((topicScores exp2 now events).get topic).getD 0

/-- Smaller is listed first: `(-scores[topic], topic)`. -/
def compareScored (a b : K × String) : Ordering :=
  (compare a.1 b.1).then (compare a.2 b.2)

/-- `ranked_view_topics(events, at=now)`. -/
def rankedViewTopics (now : Instant) (events : List PreferenceEvent) : List String :=
  let scores := topicScores exp2 now events
  (stableSort (compareBy compareScored fun topic => (-(scores.get topic).getD 0, topic))
    (scores.map (·.1))).take maxTopics

end Scores

/-! ### The event that counts for a post -/

/-- The loop does not skip the event. -/
def viewed (now : Instant) (event : PreferenceEvent) : Bool :=
  event.eventType ∈ ["view", "dwell"] ∧ now - window ≤ event.occurredAt ∧ event.occurredAt ≤ now

/-- Of the latest views of a post the first supplied. -/
def latestEvent (now : Instant) (events : List PreferenceEvent) (post : String) :
    Option PreferenceEvent :=
  @List.argmax _ Instant Int.instLinearOrder.toPreorder _ (·.occurredAt)
    ((events.filter (viewed now)).filter fun event => event.postId = post)

theorem latestByPost_eq (now : Instant) (events : List PreferenceEvent) :
    latestByPost now events
      = latestBy (·.occurredAt) (·.postId) (events.filter (viewed now)) := by
  rw [latestBy, List.foldl_filter, latestByPost]
  congr 1
  ext latest event : 2
  by_cases htype : event.eventType ∈ ["view", "dwell"]
  · by_cases hwindow : now - window ≤ event.occurredAt ∧ event.occurredAt ≤ now
    · simp only [htype, hwindow, not_true, if_false, viewed, and_self, decide_true, if_true,
        latestStep]
      cases latest.get event.postId with
      | none => rfl
      | some previous =>
        by_cases hlater : previous.occurredAt < event.occurredAt <;> simp [hlater]
    · simp only [htype, hwindow, not_true, not_false_eq_true, if_false, if_true, viewed,
        and_false, decide_false, Bool.false_eq_true]
  · simp only [htype, not_false_eq_true, if_true, viewed, false_and, decide_false,
      Bool.false_eq_true, if_false]

theorem get_latestByPost (now : Instant) (events : List PreferenceEvent) (post : String) :
    (latestByPost now events).get post = latestEvent now events post := by
  rw [latestByPost_eq, get_latestBy]
  rfl

theorem nodup_latestByPost (now : Instant) (events : List PreferenceEvent) :
    ((latestByPost now events).map Prod.fst).Nodup := by
  rw [latestByPost_eq]
  exact nodup_latestBy _ _ _

theorem postId_of_latestEvent {now : Instant} {events : List PreferenceEvent} {post : String}
    {event : PreferenceEvent} (h : latestEvent now events post = some event) :
    event.postId = post := by
  simpa using List.of_mem_filter (List.argmax_mem h)

/-- What is kept after the first loop: one event of each viewed post. -/
theorem mem_latestByPost {now : Instant} {events : List PreferenceEvent} {event : PreferenceEvent} :
    event ∈ (latestByPost now events).map Prod.snd
      ↔ latestEvent now events event.postId = some event := by
  -- an event is kept under its post
  rw [← get_latestByPost, List.mem_map]
  constructor
  · rintro ⟨⟨post, event⟩, hmem, rfl⟩
    have hget := OrderedDict.get_of_mem (nodup_latestByPost now events) hmem
    rwa [postId_of_latestEvent (by rwa [get_latestByPost] at hget)]
  · intro hget
    exact ⟨_, OrderedDict.mem_of_get hget, rfl⟩

theorem map_postId_latestByPost (now : Instant) (events : List PreferenceEvent) :
    ((latestByPost now events).map Prod.snd).map (·.postId)
      = (latestByPost now events).map Prod.fst := by
  rw [List.map_map]
  apply List.map_congr_left
  intro entry hentry
  have hget := OrderedDict.get_of_mem (nodup_latestByPost now events) hentry
  exact postId_of_latestEvent (by rwa [get_latestByPost] at hget)

/-! ### Scores -/

theorem nodup_eventTopics (event : PreferenceEvent) : (eventTopics event).Nodup :=
  (Lib.stableSort_perm _ _).nodup_iff.mpr (List.nodup_dedup _)

section Totals

variable {K : Type} [Field K] (exp2 : K → K)

/-- What an event adds to the scores, by its time and its topics. -/
def shares (now : Instant) (view : Instant × List String) : List (String × K) :=
  view.2.map fun topic =>
    (topic, exp2 (-(((now - view.1 : Int) : K) / 1000000 / 86400) / halfLifeDays) / view.2.length)

/-- What the scores depend on. -/
def view (event : PreferenceEvent) : Instant × List String := (event.occurredAt, eventTopics event)

theorem topicScores_eq (now : Instant) (events : List PreferenceEvent) :
    topicScores exp2 now events
      = OrderedDict.combine (· + ·) 0 []
          (((latestByPost now events).map fun entry => (entry.1, view entry.2)).flatMap
            fun entry => shares exp2 now entry.2) := by
  rw [OrderedDict.combine, List.foldl_flatMap, List.foldl_map, topicScores]
  congr 1
  ext scores entry : 2
  rw [shares, List.foldl_map]
  by_cases htopics : eventTopics entry.2 = []
  · simp [htopics, view]
  · simp only [htopics, if_false]
    rfl

theorem nodup_topicScores (now : Instant) (events : List PreferenceEvent) :
    ((topicScores exp2 now events).map Prod.fst).Nodup := by
  rw [topicScores_eq]
  exact OrderedDict.nodup_combine (d := []) _ _ List.nodup_nil _

/-- The share that an event gives to one topic. -/
theorem sum_shares (now : Instant) (event : PreferenceEvent) (topic : String) :
    ((shares exp2 now (view event)).map fun e => if e.1 = topic then e.2 else 0).sum
      = if topic ∈ eventTopics event then contribution exp2 now event else 0 := by
  have hnodup := nodup_eventTopics event
  -- a topic is in the list of an event once at most
  have hshare : ∀ topics : List String, topics.Nodup → ∀ c : K,
      ((topics.map fun t => (t, c)).map fun e => if e.1 = topic then e.2 else 0).sum
        = if topic ∈ topics then c else 0 := by
    intro topics hnodup c
    induction topics with
    | nil => rfl
    | cons t topics ih =>
      obtain ⟨hfresh, hnodup⟩ := List.nodup_cons.mp hnodup
      rw [List.map_cons, List.map_cons, List.sum_cons, ih hnodup]
      by_cases ht : t = topic
      · subst ht
        simp [hfresh]
      · have ht' : topic ≠ t := fun h => ht h.symm
        simp [ht, ht']
  exact hshare (eventTopics event) hnodup (contribution exp2 now event)

/-- The score of a topic: each post contributes once, with its latest event. -/
theorem score_eq_sum (now : Instant) (events : List PreferenceEvent) (topic : String) :
    score exp2 now events topic
      = (((latestByPost now events).map Prod.snd).map fun event =>
          if topic ∈ eventTopics event then contribution exp2 now event else 0).sum := by
  -- the score of a topic is the sum of its shares
  have htotal : ∀ entries : List (String × K),
      ((OrderedDict.combine (· + ·) 0 ([] : OrderedDict String K) entries).get topic).getD 0
        = (entries.map fun e => if e.1 = topic then e.2 else 0).sum := by
    intro entries
    rw [OrderedDict.get_combine_add]
    split
    · simp
    · next hnot =>
      symm
      apply List.sum_eq_zero
      intro m hm
      obtain ⟨e, he, rfl⟩ := List.mem_map.mp hm
      rw [if_neg]
      intro heq
      exact hnot (List.mem_map.mpr ⟨e, he, heq⟩)
  rw [score, topicScores_eq, htotal]
  induction latestByPost now events with
  | nil => rfl
  | cons entry entries ih =>
    rw [List.map_cons, List.flatMap_cons, List.map_append, List.sum_append, ih, sum_shares,
      List.map_cons, List.map_cons, List.sum_cons]

end Totals

/-! ### The order of the events -/

section Order

variable {K : Type} [Field K] (exp2 : K → K) {now : Instant}
  {events events' : List PreferenceEvent}

/-- Two orders of the events that agree on the topics of the event that counts for a post. -/
theorem view_latestEvent (hperm : events.Perm events') {post : String}
    (htopics : (latestEvent now events post).map eventTopics
      = (latestEvent now events' post).map eventTopics) :
    (latestEvent now events post).map view = (latestEvent now events' post).map view := by
  -- the latest time does not depend on the order, though the event does
  have htime : (latestEvent now events post).map (·.occurredAt)
      = (latestEvent now events' post).map (·.occurredAt) :=
    argmax_time_of_perm (·.occurredAt) ((hperm.filter _).filter _)
  cases h : latestEvent now events post with
  | none =>
    cases h' : latestEvent now events' post with
    | none => rfl
    | some event' => simp [h, h'] at htime
  | some event =>
    cases h' : latestEvent now events' post with
    | none => simp [h, h'] at htime
    | some event' =>
      simp only [h, h', Option.map_some, Option.some.injEq] at htime htopics
      simp [view, htime, htopics]

theorem get_topicScores_of_order (hperm : events.Perm events')
    (htopics : ∀ post, (latestEvent now events post).map eventTopics
      = (latestEvent now events' post).map eventTopics) (topic : String) :
    (topicScores exp2 now events).get topic = (topicScores exp2 now events').get topic := by
  -- the same posts, with the same times and topics
  have hentries : ((latestByPost now events).map fun entry => (entry.1, view entry.2)).Perm
      ((latestByPost now events').map fun entry => (entry.1, view entry.2)) := by
    apply OrderedDict.map_perm_of_get_map_eq (nodup_latestByPost now events)
      (nodup_latestByPost now events')
    intro post
    rw [get_latestByPost, get_latestByPost]
    exact view_latestEvent hperm (htopics post)
  rw [topicScores_eq, topicScores_eq]
  exact OrderedDict.get_combine_add_of_perm (hentries.flatMap_right _) [] topic

end Order

section Ranking

variable {K : Type} [Field K] [LinearOrder K] (exp2 : K → K) {now : Instant}
  {events events' : List PreferenceEvent}

instance : Std.TransCmp (compareScored (K := K)) :=
  inferInstanceAs (Std.TransCmp (compareLex (compareBy compare fun a : K × String => a.1)
    (compareBy compare fun a : K × String => a.2)))

/-- The final sort looks at the scores only: no two topics are tied. -/
theorem rankedViewTopics_eq_of_get
    (h : ∀ topic, (topicScores exp2 now events).get topic
      = (topicScores exp2 now events').get topic) :
    rankedViewTopics exp2 now events = rankedViewTopics exp2 now events' := by
  have hkeys := OrderedDict.keys_perm_of_get_eq (nodup_topicScores exp2 now events)
    (nodup_topicScores exp2 now events') h
  -- the topic itself breaks a tie of scores
  have hnoTies : ((topicScores exp2 now events).map (·.1)).Pairwise fun a b =>
      compareBy compareScored
        (fun topic => (-((topicScores exp2 now events).get topic).getD 0, topic)) a b ≠ .eq := by
    refine (nodup_topicScores exp2 now events).imp ?_
    intro a b hab heq
    rw [compareBy, compareScored, Ordering.then_eq_eq] at heq
    exact hab (Std.LawfulEqCmp.eq_of_compare heq.2)
  have hsort := stableSort_eq_of_perm hkeys hnoTies
  simp only [rankedViewTopics, ← h]
  rw [hsort]

/-- For two orders of supply that agree, for every post, on the topics of the first of its latest
    views: the list is the same, it has at most five topics, and each post contributes once. -/
theorem rankedViewTopics_of_order (hperm : events.Perm events')
    (htopics : ∀ post, (latestEvent now events post).map eventTopics
      = (latestEvent now events' post).map eventTopics) :
    rankedViewTopics exp2 now events = rankedViewTopics exp2 now events'
      ∧ (rankedViewTopics exp2 now events).length ≤ 5
      ∧ ∃ chosen : List PreferenceEvent, (chosen.map (·.postId)).Nodup
        ∧ (∀ event, event ∈ chosen ↔ latestEvent now events event.postId = some event)
        ∧ ∀ topic, score exp2 now events topic = (chosen.map fun event =>
            if topic ∈ eventTopics event then contribution exp2 now event else 0).sum := by
  refine ⟨rankedViewTopics_eq_of_get exp2 (get_topicScores_of_order exp2 hperm htopics), ?_,
    (latestByPost now events).map Prod.snd, ?_, fun _ => mem_latestByPost,
    score_eq_sum exp2 now events⟩
  · rw [rankedViewTopics, List.length_take]
    exact Nat.min_le_left _ _
  · rw [map_postId_latestByPost]
    exact nodup_latestByPost now events

/-! ### The query of the worker -/

/-- `ORDER BY event.occurred_at, event.id`. -/
def compareRows (a b : CanonicalRow) : Ordering :=
  (compare a.occurredAt b.occurredAt).then (compare a.eventId b.eventId)

/-- The rows of a user that `_refresh_recent_topics_for_user` fetches. -/
def viewRows (now : Instant) (rows : List CanonicalRow) : List CanonicalRow :=
  stableSort compareRows (rows.filter fun row =>
    row.eventType ∈ ["view", "dwell"] ∧ now - window ≤ row.occurredAt ∧ row.occurredAt ≤ now)

/-- The topics that `_refresh_recent_topics_for_user` stores. -/
def refreshTopics (now : Instant) (rows : List CanonicalRow) : List String :=
  rankedViewTopics exp2 now (canonicalPreferenceEvents (viewRows now rows))

instance : Std.TransCmp compareRows :=
  inferInstanceAs (Std.TransCmp (compareLex (compareBy compare CanonicalRow.occurredAt)
    (compareBy compare CanonicalRow.eventId)))

/-- The ids of the events break every tie: what is stored is a function of the set of rows. -/
theorem refreshTopics_perm {rows rows' : List CanonicalRow} (hperm : rows.Perm rows')
    (hids : (rows.map (·.eventId)).Nodup) :
    refreshTopics exp2 now rows = refreshTopics exp2 now rows' := by
  have hsort : viewRows now rows = viewRows now rows' := by
    apply stableSort_eq_of_perm (hperm.filter _)
    -- no two rows have one id, so the order of the query is total
    have hsub : ((rows.filter _).map (·.eventId)).Nodup :=
      hids.sublist ((List.filter_sublist (p := fun row : CanonicalRow =>
        row.eventType ∈ ["view", "dwell"] ∧ now - window ≤ row.occurredAt ∧ row.occurredAt ≤ now)
        (l := rows)).map _)
    refine (List.pairwise_map.mp hsub).imp ?_
    intro a b hab heq
    rw [compareRows, Ordering.then_eq_eq] at heq
    exact hab (Std.LawfulEqCmp.eq_of_compare heq.2)
  rw [refreshTopics, refreshTopics, hsort]

end Ranking

/-! ### Views at one time -/

/-- A view of a post at the reference time. -/
def viewNow (post eventType : String) (topics : List String) : PreferenceEvent where
  eventId := post ++ "-" ++ eventType
  postId := post
  eventType := eventType
  topics := topics
  occurredAt := 0
  impressionId := none
  sessionId := none
  visitId := none
  dwellMs := none
  readTrigger := none

/-- A view and a dwell of one post at one time, with different snapshots: the first supplied
    counts.  The events are of age zero, where `exp2` is one. -/
theorem rankedViewTopics_order_matters :
    ¬ ∀ (now : Instant) (events events' : List PreferenceEvent), events.Perm events' →
      rankedViewTopics (fun _ : ℚ => 1) now events
        = rankedViewTopics (fun _ : ℚ => 1) now events' := by
  intro h
  have hsame := h 0 [viewNow "p" "view" ["ai"], viewNow "p" "dwell" ["science"]]
    [viewNow "p" "dwell" ["science"], viewNow "p" "view" ["ai"]] (List.Perm.swap _ _ _)
  have hview : rankedViewTopics (fun _ : ℚ => 1) 0
      [viewNow "p" "view" ["ai"], viewNow "p" "dwell" ["science"]] = ["ai"] := by rfl
  have hdwell : rankedViewTopics (fun _ : ℚ => 1) 0
      [viewNow "p" "dwell" ["science"], viewNow "p" "view" ["ai"]] = ["science"] := by rfl
  rw [hview, hdwell] at hsame
  exact absurd hsame (by decide)

/-- A view and a dwell of one post at one time, with one snapshot. -/
theorem rankedViewTopics_view_dwell :
    rankedViewTopics (fun _ : ℚ => 1) 0 [viewNow "p" "view" ["ai"], viewNow "p" "dwell" ["ai"]]
      = rankedViewTopics (fun _ : ℚ => 1) 0
        [viewNow "p" "dwell" ["ai"], viewNow "p" "view" ["ai"]] := by
  refine (rankedViewTopics_of_order (fun _ : ℚ => 1) (List.Perm.swap _ _ _) ?_).1
  intro post
  by_cases hpost : post = "p"
  · subst hpost
    rfl
  · have hne : "p" ≠ post := fun h => hpost h.symm
    simp [latestEvent, viewNow, viewed, window, hne]

end Oecophylla.Preference.RecentTopics
