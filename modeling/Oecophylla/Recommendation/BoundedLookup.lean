import Oecophylla.Recommendation.UserHistory

namespace Oecophylla.Recommendation

open Dataset
open Lib (stableSort)
open Oecophylla.Python (Value Timestamp)

/-!
# The bounded lookup of a history — `fetch_user_history`

The online path reads a limited number of clicks and the features of their posts that were there at
the observation time.  Nothing is lost against the snapshot of all clicks and all features.

* `userClicks` — all v2 clicks of a user;
* `buildHistorySnapshot_of_v2` — the snapshot of events that all have the label version v2;
* `fetchUserHistory_eq_buildHistorySnapshot` — the two snapshots are equal, in whatever order the
  rows are read or given.
-/

variable {F : Type} {db : Database F} {text : Value → String} {config : DatasetConfig}
  {userId : Nat} {reference : Timestamp}

variable (db text userId) in
/-- The v2 clicks of a user in the tables. -/
def userClicks : List BehaviorEvent :=
  (db.events.filter fun row => row.userId = userId ∧ row.eventType = "click"
    ∧ row.eventVersion text = some "v2").map (EventRow.toEvent text)

/-- A click of the user has the label version v2. -/
theorem eventLabelVersion_of_mem_userClicks {e : BehaviorEvent} (h : e ∈ userClicks db text userId) :
    eventLabelVersion e = .ok .v2 := by
  obtain ⟨row, hrow, rfl⟩ := List.mem_map.mp h
  obtain ⟨-, -, hversion⟩ := of_decide_eq_true (List.mem_filter.mp hrow).2
  have hread := (eventLabelVersion_toEvent row).mpr hversion
  cases hlabel : eventLabelVersion (row.toEvent text) with
  | error raised =>
    rw [hlabel] at hread
    cases hread
  | ok version =>
    rw [hlabel] at hread
    exact congrArg _ (Option.some.inj hread)

/-- The clicks of the history are among the clicks of the user. -/
theorem historyClicks_userClicks (db : Database F) (text : Value → String) (userId : Nat)
    (reference : Timestamp) :
    (userClicks db text userId).filter (fun e => HistoryClick userId reference e)
      = db.historyClicks text userId reference := by
  unfold userClicks Database.historyClicks
  rw [List.filter_map, List.filter_map, List.filter_filter]
  refine congrArg _ (List.filter_congr fun row _ => ?_)
  simp only [Function.comp_apply, historyClick_toEvent]
  by_cases h : row.userId = userId ∧ row.eventType = "click" ∧ row.eventVersion text = some "v2"
  · simp [h]
  · -- such a row is not a click of the history either
    have hno : ¬ (row.userId = userId ∧ row.eventType = "click" ∧ row.eventVersion text = some "v2"
        ∧ row.occurredAt < reference ∧ row.ingestedAt ≤ reference) :=
      fun hclick => h ⟨hclick.1, hclick.2.1, hclick.2.2.1⟩
    simp only [h, hno, decide_false, Bool.and_false]

/-- Tables with the same events have the same clicks. -/
theorem historyClicks_perm {db' : Database F} (h : db'.events.Perm db.events) :
    (db'.historyClicks text userId reference).Perm (db.historyClicks text userId reference) :=
  (h.map _).filter _

/-- The entries of the last clicks need only the features that are read online. -/
theorem historyEntries_historyFeatures (slack : Nat) {features : List (ArticleFeatureRecord F)}
    (hfeatures : features.Perm db.features) :
    historyEntries (historyFeatures db
        (((historyRows db text config slack userId reference).map (EventRow.toEvent text)).map
          BehaviorEvent.postId) reference) (lastClicks db text config userId reference)
      = historyEntries features (lastClicks db text config userId reference) := by
  refine List.filterMap_congr fun e he => congrArg _ ?_
  obtain ⟨⟨-, -, -, hbefore, -⟩, -⟩ := historyClick_of_mem_lastClicks he
  -- every feature that was there at the click was there at the observation time
  have hle : e.occurredAt ≤ reference := Int.le_of_lt hbefore
  rw [selectHistoryFeature_historyFeatures (postId_mem_historyRows he) hle]
  refine (selectHistoryFeature_eq _ ?_).symm
  rw [List.filter_filter]
  refine (hfeatures.filter _).trans (List.Perm.of_eq (List.filter_congr fun f _ => ?_))
  exact Bool.and_comm _ _

section Snapshots

variable [BEq F]

/-- **The snapshot of v2 events** always exists. -/
theorem buildHistorySnapshot_of_v2 {events : List BehaviorEvent}
    {features : List (ArticleFeatureRecord F)}
    (hv2 : ∀ e ∈ events, eventLabelVersion e = .ok .v2)
    (hnodup : (features.map ArticleFeatureRecord.id).Nodup) :
    buildHistorySnapshot userId reference events features config
      = .ok ⟨"user-history-snapshot-v1", userId, reference,
          historyEntries features (lastItems config.historyTotalLimit
            (stableSort compareOccurred (events.filter fun e => HistoryClick userId reference e)))⟩ := by
  have hqualify : ∀ e ∈ events,
      (if e.userId = userId then qualifiesForHistory e reference else pure false)
        = (.ok (decide (HistoryClick userId reference e)) : Except Raised Bool) := by
    intro e he
    have hclick : HistoryClick userId reference e ↔ e.userId = userId ∧ e.eventType = "click"
        ∧ e.occurredAt < reference ∧ IngestedBy reference e := by
      unfold HistoryClick
      simp [hv2 e he, Except.toOption]
    simp only [hclick, qualifiesForHistory, hv2 e he]
    by_cases huser : e.userId = userId
    · by_cases htype : e.eventType = "click"
      · simp [huser, htype, bind, Except.bind, pure, Except.pure]
      · simp [htype, pure, Except.pure]
    · simp [huser, pure, Except.pure]
  unfold buildHistorySnapshot
  rw [Lib.filterM_of_ok hqualify, deduplicate_of_nodup hnodup]
  rfl

/-- **The bounded lookup loses nothing.**  The online snapshot, with any slack, is the snapshot of
    all v2 clicks of the user and of all features; the order of the rows in the tables, of the events
    and of the features does not matter. -/
theorem fetchUserHistory_eq_buildHistorySnapshot (db' : Database F) (slack : Int)
    (hrows : db'.events.Perm db.events) (hrevisions : db'.features.Perm db.features)
    {events : List BehaviorEvent} (hevents : events.Perm (userClicks db text userId))
    {features : List (ArticleFeatureRecord F)} (hfeatures : features.Perm db.features) :
    fetchUserHistory db' text config slack.toNat userId reference
      = buildHistorySnapshot userId reference events features config := by
  have hv2 : ∀ e ∈ events, eventLabelVersion e = .ok .v2 := fun e he =>
    eventLabelVersion_of_mem_userClicks (hevents.mem_iff.mp he)
  have hnodup : (features.map ArticleFeatureRecord.id).Nodup :=
    (hfeatures.map _).nodup_iff.mpr db.features_nodup
  -- both select the same clicks, since no two clicks are tied
  have hperm : (db'.historyClicks text userId reference).Perm
      (events.filter fun e => HistoryClick userId reference e) := by
    refine (historyClicks_perm hrows).trans ?_
    rw [← historyClicks_userClicks]
    exact (hevents.filter _).symm
  have hclicks : lastClicks db' text config userId reference
      = lastItems config.historyTotalLimit
        (stableSort compareOccurred (events.filter fun e => HistoryClick userId reference e)) :=
    congrArg _ (Lib.stableSort_eq_of_perm hperm
      (compareOccurred_ne_eq (nodup_historyClicks userId reference)))
  rw [fetchUserHistory_eq, buildHistorySnapshot_of_v2 hv2 hnodup, ← hclicks,
    historyEntries_historyFeatures slack.toNat (hfeatures.trans hrevisions.symm)]

end Snapshots

/-! ### An example -/

/-- A time of March 2026, UTC. -/
private def inMarch (day hour : Nat) : Timestamp := ⟨⟨2026, 3, day, hour, 0, 0, 0, some 0⟩, rfl⟩

/-- One recent click and one before it. -/
private def shortHistory : DatasetConfig :=
  { DatasetConfig.ofTimes (inMarch 1 0) (inMarch 2 0) (inMarch 20 0) (by decide) (by decide) with
    historyRecentLimit := 1
    historyLongTermLimit := 1 }

private def click (id postId : Nat) (at_ : Timestamp) : EventRow :=
  ⟨id, none, 5, postId, "click", none, [("event_version", .str "v2")], at_, at_⟩

private def embeddedInMarch (id postId : Nat) (embedding : List Int) (computedAt : Timestamp) :
    ArticleFeatureRecord Int :=
  ⟨id, postId, pinnedEncoderVersion, "66785409653e72800245bb8789022996744d8421205c30633d6487784782a492",
    embedding, inMarch 1 0, computedAt⟩

/-- Three clicks, two of them at one time; only two of the posts are embedded. -/
private def threeClicks : Database Int where
  impressions := []
  events := [click 21 8 (inMarch 3 0), click 22 9 (inMarch 3 0), click 20 7 (inMarch 1 0)]
  features := [embeddedInMarch 31 9 [1, 0] (inMarch 2 0), embeddedInMarch 32 7 [0, 1] (inMarch 1 0)]
  impressions_nodup := by decide
  events_nodup := by decide
  features_nodup := by decide

/-- The rows are read in another order than the events and features are given. -/
theorem fetchUserHistory_eq_buildHistorySnapshot_threeClicks :
    fetchUserHistory threeClicks (fun _ => "") shortHistory (-1 : Int).toNat 5 (inMarch 4 0)
      = buildHistorySnapshot 5 (inMarch 4 0) (userClicks threeClicks (fun _ => "") 5).reverse
        threeClicks.features.reverse shortHistory :=
  fetchUserHistory_eq_buildHistorySnapshot threeClicks (-1) (List.Perm.refl _) (List.Perm.refl _)
    (List.reverse_perm _) (List.reverse_perm _)

end Oecophylla.Recommendation
