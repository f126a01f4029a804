import Oecophylla.Dataset.Export
import Oecophylla.Dataset.Leakage
import Oecophylla.Lib.Table

namespace Oecophylla.Recommendation

open Dataset
open Lib (stableSort)
open Oecophylla.Python (Value Timestamp)

/-!
# The history of a user, online and offline — `fetch_user_history`, `build_ranking_samples_v2`

Online, two bounded queries read the newest clicks and their features, and the snapshot is built
from them.  Offline it is built from the export.

* `historyRows`, `historyFeatures`, `fetchUserHistory` — the online path;
* `lastClicks` — the clicks that both select (`fetchUserHistory_eq`, `entries_of_exported`);
* `NewestFeature`, `Parity` — the condition: the newest feature of a clicked post is one of the
  encoder that the export is configured with;
* `fetchUserHistory_eq_iff` — the two snapshots are equal exactly when it holds.
-/

variable {F : Type}

section Online

variable (db : Database F) (text : Value → String) (config : DatasetConfig) (slack : Nat)

/-- `event_rows`. -/
def historyRows (userId : Nat) (reference : Timestamp) : List EventRow :=
  (stableSort (fun a b => EventRow.compareOccurred b a) (db.events.filter fun row =>
    row.userId = userId ∧ row.eventType = "click" ∧ row.occurredAt < reference
      ∧ row.ingestedAt ≤ reference ∧ row.eventVersion text = some "v2")).take
    (max 1 config.historyTotalLimit + slack)

/-- `ORDER BY post_id, source_updated_at DESC, computed_at DESC, id DESC`. -/
def compareLatest (a b : ArticleFeatureRecord F) : Ordering :=
  (compare a.postId b.postId).then (compareNewest a b)

/-- `feature_rows`. -/
def historyFeatures (posts : List Nat) (reference : Timestamp) : List (ArticleFeatureRecord F) :=
  stableSort compareLatest (db.features.filter fun f =>
    f.postId ∈ posts ∧ f.sourceUpdatedAt ≤ reference ∧ f.computedAt ≤ reference)

/-- `fetch_user_history(db, redis, user_id, at, config)`, with the limits of the dataset and
    `history_lookup_slack`; with `at`, no cache is read. -/
def fetchUserHistory [BEq F] (userId : Nat) (reference : Timestamp) :
    Except Raised (HistorySnapshot F) :=
  let events := (historyRows db text config slack userId reference).map (EventRow.toEvent text)
  buildHistorySnapshot userId reference events
    (historyFeatures db (events.map BehaviorEvent.postId) reference) config

/-- The last clicks of the history, as many as the limits allow. -/
def lastClicks (userId : Nat) (reference : Timestamp) : List BehaviorEvent :=
  lastItems config.historyTotalLimit
    (stableSort compareOccurred (db.historyClicks text userId reference))

/-- The newest feature of a post at a time, of any encoder. -/
def NewestFeature (postId : Nat) (t : Timestamp) (f : ArticleFeatureRecord F) : Prop :=
  (f ∈ db.features ∧ f.postId = postId ∧ AvailableAt t f)
    ∧ ∀ g ∈ db.features, g.postId = postId → AvailableAt t g → (compareNewest f g).isLE = true

/-- **The condition.**  For each of the last clicks, the newest feature of its post that was there
    then, if any, is of the configured encoder. -/
def Parity (userId : Nat) (reference : Timestamp) : Prop :=
  ∀ e ∈ lastClicks db text config userId reference, ∀ f,
    NewestFeature db e.postId e.occurredAt f → f.encoderVersion = config.encoderVersion

end Online

/-! ### Lists -/

/-- The last entries of a list are the last entries of an end of it. -/
theorem lastItems_drop {α : Type} {l : List α} {m n : Nat} (h : n ≤ m) :
    lastItems n (l.drop (l.length - m)) = lastItems n l := by
  unfold lastItems
  rw [List.drop_drop, List.length_drop]
  congr 1
  omega

/-! ### The clicks -/

section Clicks

variable {db : Database F} {text : Value → String} {config : DatasetConfig} {slack : Nat}
  {userId : Nat} {reference : Timestamp}

/-- The bounded query has the last clicks. -/
theorem lastItems_historyRows (slack : Nat) :
    lastItems config.historyTotalLimit (stableSort compareOccurred
        ((historyRows db text config slack userId reference).map (EventRow.toEvent text)))
      = lastClicks db text config userId reference := by
  have hties : (db.historyClicks text userId reference).Pairwise
      fun a b => compareOccurred a b ≠ .eq :=
    compareOccurred_ne_eq (nodup_historyClicks userId reference)
  have hclicks : (db.events.filter fun row => row.userId = userId ∧ row.eventType = "click"
        ∧ row.occurredAt < reference ∧ row.ingestedAt ≤ reference
        ∧ row.eventVersion text = some "v2").map (EventRow.toEvent text)
      = db.historyClicks text userId reference := by
    unfold Database.historyClicks
    rw [List.filter_map]
    refine congrArg (List.map _) (List.filter_congr fun row _ => ?_)
    rw [Function.comp_apply, decide_eq_decide, historyClick_toEvent]
    exact ⟨fun ⟨huser, hclick, hbefore, hingested, hversion⟩ =>
        ⟨huser, hclick, hversion, hbefore, hingested⟩,
      fun ⟨huser, hclick, hversion, hbefore, hingested⟩ =>
        ⟨huser, hclick, hbefore, hingested, hversion⟩⟩
  have hlatest : ((historyRows db text config slack userId reference).map (EventRow.toEvent text))
      = ((stableSort compareOccurred (db.historyClicks text userId reference)).drop
          ((stableSort compareOccurred (db.historyClicks text userId reference)).length
            - (max 1 config.historyTotalLimit + slack))).reverse := by
    rw [← List.take_reverse, ← Lib.stableSort_swap hties, ← hclicks, Lib.stableSort_map,
      ← List.map_take]
    rfl
  have hsorted := (Lib.pairwise_lt_stableSort hties).sublist (List.drop_sublist
    ((stableSort compareOccurred (db.historyClicks text userId reference)).length
      - (max 1 config.historyTotalLimit + slack)) _)
  have hties' := hsorted.imp fun {a b} (hlt : compareOccurred a b = .lt) =>
    show compareOccurred a b ≠ .eq by simp [hlt]
  rw [hlatest, ← Lib.stableSort_eq_of_perm (List.reverse_perm _).symm hties',
    Lib.stableSort_eq_self hsorted]
  exact lastItems_drop (by omega)

/-- A click that is selected is a click of the history. -/
theorem historyClick_of_mem_lastClicks {e : BehaviorEvent}
    (he : e ∈ lastClicks db text config userId reference) :
    HistoryClick userId reference e ∧ ∃ row ∈ db.events, e = row.toEvent text := by
  have hmem := Lib.mem_stableSort.mp (List.mem_of_mem_drop he)
  obtain ⟨hmem, hclick⟩ := List.mem_filter.mp hmem
  obtain ⟨row, hrow, rfl⟩ := List.mem_map.mp hmem
  exact ⟨of_decide_eq_true hclick, row, hrow, rfl⟩

theorem historyClick_of_mem_historyRows {row : EventRow}
    (h : row ∈ historyRows db text config slack userId reference) :
    HistoryClick userId reference (row.toEvent text) := by
  have hmem := Lib.mem_stableSort.mp (List.mem_of_mem_take h)
  obtain ⟨huser, hclick, hbefore, hingested, hversion⟩ := of_decide_eq_true (List.mem_filter.mp hmem).2
  exact (historyClick_toEvent userId reference row).mpr
    ⟨huser, hclick, hversion, hbefore, hingested⟩

variable [BEq F]

/-- What a snapshot carries besides its entries. -/
theorem eq_of_buildHistorySnapshot {events : List BehaviorEvent}
    {features : List (ArticleFeatureRecord F)} {snapshot : HistorySnapshot F}
    (h : buildHistorySnapshot userId reference events features config = .ok snapshot) :
    snapshot = ⟨"user-history-snapshot-v1", userId, reference, snapshot.entries⟩ := by
  unfold buildHistorySnapshot at h
  simp only [Lib.except_bind_eq_ok, Lib.except_pure_eq_ok] at h
  obtain ⟨_, -, _, -, rfl⟩ := h
  rfl

/-- **The online snapshot** always exists, and has the entries of the last clicks. -/
theorem fetchUserHistory_eq :
    fetchUserHistory db text config slack userId reference
      = .ok ⟨"user-history-snapshot-v1", userId, reference,
          historyEntries (historyFeatures db
              (((historyRows db text config slack userId reference).map (EventRow.toEvent text)).map
                BehaviorEvent.postId) reference)
            (lastClicks db text config userId reference)⟩ := by
  have hclicks : ∀ e ∈ (historyRows db text config slack userId reference).map
      (EventRow.toEvent text), HistoryClick userId reference e := by
    intro e he
    obtain ⟨row, hrow, rfl⟩ := List.mem_map.mp he
    exact historyClick_of_mem_historyRows hrow
  have hqualify : ∀ e ∈ (historyRows db text config slack userId reference).map
      (EventRow.toEvent text),
      (if e.userId = userId then qualifiesForHistory e reference else pure false)
        = (.ok true : Except Raised Bool) := by
    intro e he
    obtain ⟨huser, hclick, hversion, hbefore, hingested⟩ := hclicks e he
    have hv2 : eventLabelVersion e = .ok .v2 := by
      cases hread : eventLabelVersion e with
      | ok version =>
        rw [hread] at hversion
        exact congrArg _ (Option.some.inj hversion)
      | error raised =>
        rw [hread] at hversion
        cases hversion
    unfold qualifiesForHistory
    rw [if_pos huser, if_pos hclick, hv2]
    simp [bind, Except.bind, pure, Except.pure, hbefore, hingested]
  have hnodup : ((historyFeatures db (((historyRows db text config slack userId reference).map
      (EventRow.toEvent text)).map BehaviorEvent.postId) reference).map
        ArticleFeatureRecord.id).Nodup :=
    ((Lib.stableSort_perm _ _).map ArticleFeatureRecord.id).nodup_iff.mpr
      (List.Nodup.sublist (List.filter_sublist.map _) db.features_nodup)
  unfold fetchUserHistory buildHistorySnapshot
  dsimp only
  rw [Lib.filterM_of_ok (q := fun _ => true) hqualify, List.filter_true,
    deduplicate_of_nodup hnodup]
  simp only [bind, Except.bind, pure, Except.pure]
  rw [lastItems_historyRows slack]

end Clicks

/-! ### The features -/

section Features

variable {db : Database F} {text : Value → String} {config : DatasetConfig} {slack : Nat}
  {userId : Nat} {reference : Timestamp}

/-- Online, the features of a clicked post are all that were there. -/
theorem selectHistoryFeature_historyFeatures {posts : List Nat} {postId : Nat} {t : Timestamp}
    (hpost : postId ∈ posts) (ht : t ≤ reference) :
    selectHistoryFeature ((historyFeatures db posts reference).filter fun f => f.postId = postId) t
      = selectHistoryFeature (db.features.filter fun f => f.postId = postId) t := by
  apply selectHistoryFeature_eq
  rw [List.filter_filter]
  refine ((Lib.stableSort_perm _ _).filter _).trans ?_
  rw [List.filter_filter]
  refine List.Perm.of_eq (List.filter_congr fun f _ => ?_)
  by_cases havailable : AvailableAt t f
  · by_cases hf : f.postId = postId
    · have hsource : f.sourceUpdatedAt ≤ reference := Int.le_trans havailable.1 ht
      have hcomputed : f.computedAt ≤ reference := Int.le_trans havailable.2 ht
      simp [havailable, hf, hpost, hsource, hcomputed]
    · simp [hf]
  · simp [havailable]

/-- A selection from the features that meet a condition. -/
theorem selectHistoryFeature_eq_some_iff (p : ArticleFeatureRecord F → Bool) {t : Timestamp}
    {f : ArticleFeatureRecord F} :
    selectHistoryFeature (db.features.filter p) t = some f
      ↔ (f ∈ db.features ∧ p f = true ∧ AvailableAt t f)
        ∧ ∀ g ∈ db.features, p g = true → AvailableAt t g → (compareNewest f g).isLE = true := by
  have hnodup : (((db.features.filter p).filter fun f => AvailableAt t f).map
      ArticleFeatureRecord.id).Nodup :=
    List.Nodup.sublist ((List.filter_sublist.trans List.filter_sublist).map _) db.features_nodup
  unfold selectHistoryFeature
  rw [Lib.firstLeast_eq_some_iff (compareNewest_ne_eq hnodup)]
  simp only [List.mem_filter, decide_eq_true_iff, and_imp, and_assoc]

/-- The newest feature is what the selection from all features of the post gives. -/
theorem newestFeature_iff {postId : Nat} {t : Timestamp} {f : ArticleFeatureRecord F} :
    NewestFeature db postId t f
      ↔ selectHistoryFeature (db.features.filter fun f => f.postId = postId) t = some f := by
  rw [selectHistoryFeature_eq_some_iff]
  simp only [decide_eq_true_iff]
  rfl

/-- **One click.**  The entries agree exactly when the newest feature is of the encoder. -/
theorem map_select_eq_iff (e : BehaviorEvent) (encoderVersion : String) :
    (selectHistoryFeature (db.features.filter fun f => f.postId = e.postId) e.occurredAt).map
        (historyEntry e)
      = (selectHistoryFeature (db.features.filter fun f =>
          f.postId = e.postId ∧ f.encoderVersion = encoderVersion) e.occurredAt).map (historyEntry e)
      ↔ ∀ f, NewestFeature db e.postId e.occurredAt f → f.encoderVersion = encoderVersion := by
  refine ⟨fun h f hf => ?_, fun h => ?_⟩
  · rw [newestFeature_iff.mp hf, Option.map_some, eq_comm, Option.map_eq_some_iff] at h
    obtain ⟨g, hg, heq⟩ := h
    obtain ⟨⟨-, hencoder, -⟩, -⟩ := (selectHistoryFeature_eq_some_iff _).mp hg
    have hversion : g.encoderVersion = f.encoderVersion := congrArg HistoryEntry.encoderVersion heq
    exact hversion ▸ (of_decide_eq_true hencoder).2
  · congr 1
    symm
    cases hall : selectHistoryFeature (db.features.filter fun f => f.postId = e.postId)
        e.occurredAt with
    | some f =>
      have hnewest := newestFeature_iff.mpr hall
      obtain ⟨⟨hmem, hpost, havailable⟩, hleast⟩ := hnewest
      refine (selectHistoryFeature_eq_some_iff _).mpr
        ⟨⟨hmem, decide_eq_true ⟨hpost, h f (newestFeature_iff.mpr hall)⟩, havailable⟩, ?_⟩
      intro g hg hpg
      exact hleast g hg (of_decide_eq_true hpg).1
    | none =>
      rw [Option.eq_none_iff_forall_ne_some]
      intro f hf
      obtain ⟨⟨hmem, hpost, havailable⟩, -⟩ := (selectHistoryFeature_eq_some_iff _).mp hf
      have hmem' : f ∈ (db.features.filter fun f => f.postId = e.postId).filter
          fun f => AvailableAt e.occurredAt f :=
        List.mem_filter.mpr ⟨List.mem_filter.mpr
          ⟨hmem, decide_eq_true (of_decide_eq_true hpost).1⟩, decide_eq_true havailable⟩
      have hsome := Lib.firstLeast_isSome compareNewest hmem'
      unfold selectHistoryFeature at hall
      rw [hall] at hsome
      cases hsome

end Features

/-! ### Parity -/

section Parity

variable {db : Database F} {text : Value → String} {config : DatasetConfig} {slack : Nat}

/-- The clicked posts are read online. -/
theorem postId_mem_historyRows {userId : Nat} {reference : Timestamp} {e : BehaviorEvent}
    (he : e ∈ lastClicks db text config userId reference) :
    e.postId ∈ ((historyRows db text config slack userId reference).map (EventRow.toEvent text)).map
      BehaviorEvent.postId := by
  rw [← lastItems_historyRows slack] at he
  exact List.mem_map_of_mem (Lib.mem_stableSort.mp (List.mem_of_mem_drop he))

/-- The clicked posts are exported. -/
theorem postId_mem_exportedPosts {i : Impression} {reference : Timestamp} {e : BehaviorEvent}
    (hi : i ∈ exportedImpressions db config) (hstop : reference.micros ≤ config.stop.micros)
    (hextraction : reference ≤ config.extractionTime)
    (he : e ∈ lastClicks db text config i.userId reference) :
    e.postId ∈ exportedPosts db text config := by
  obtain ⟨hclick, row, hrow, rfl⟩ := historyClick_of_mem_lastClicks he
  have hexported := exported_of_historyClick hi hstop hextraction hclick
  exact List.mem_append_right _ (List.mem_map.mpr ⟨row, List.mem_filter.mpr
    ⟨mem_exportedRows.mpr ⟨hrow, hexported⟩, decide_eq_true hclick.2.1⟩, rfl⟩)

theorem nodup_lastClicks (userId : Nat) (reference : Timestamp) :
    ((lastClicks db text config userId reference).map BehaviorEvent.id).Nodup := by
  refine List.Nodup.sublist ((List.drop_sublist _ _).map _) ?_
  exact ((Lib.stableSort_perm _ _).map _).nodup_iff.mpr (nodup_historyClicks userId reference)

/-- The entries of the two snapshots. -/
theorem historyEntries_eq_iff (slack : Nat) {i : Impression} {reference : Timestamp}
    (hi : i ∈ exportedImpressions db config) (hstop : reference.micros ≤ config.stop.micros)
    (hextraction : reference ≤ config.extractionTime) :
    historyEntries (historyFeatures db (((historyRows db text config slack i.userId reference).map
          (EventRow.toEvent text)).map BehaviorEvent.postId) reference)
        (lastClicks db text config i.userId reference)
      = historyEntries (exportedFeatures db text config)
        (lastClicks db text config i.userId reference)
      ↔ Parity db text config i.userId reference := by
  have hkey : ∀ (features : List (ArticleFeatureRecord F)) (e : BehaviorEvent) (entry : HistoryEntry F),
      (selectHistoryFeature (features.filter fun f => f.postId = e.postId) e.occurredAt).map
        (historyEntry e) = some entry → entry.eventId = e.id := by
    intro features e entry h
    obtain ⟨f, -, rfl⟩ := Option.map_eq_some_iff.mp h
    rfl
  unfold historyEntries
  rw [Lib.filterMap_eq_iff (hkey _) (hkey _) (nodup_lastClicks i.userId reference)]
  refine forall₂_congr fun e he => ?_
  have hbefore : e.occurredAt ≤ reference :=
    Int.le_of_lt (historyClick_of_mem_lastClicks he).1.2.2.2.1
  rw [selectHistoryFeature_historyFeatures (postId_mem_historyRows he) hbefore,
    selectHistoryFeature_exported (postId_mem_exportedPosts hi hstop hextraction he)
      (Int.le_trans hbefore hextraction)]
  exact map_select_eq_iff e config.encoderVersion

variable [BEq F]

/-- **The offline snapshot** has the entries of the last clicks. -/
theorem entries_of_exported {i : Impression} {reference : Timestamp} {offline : HistorySnapshot F}
    (hi : i ∈ exportedImpressions db config) (hstop : reference.micros ≤ config.stop.micros)
    (hextraction : reference ≤ config.extractionTime)
    (h : buildHistorySnapshot i.userId reference (exportedEvents db text config)
      (exportedFeatures db text config) config = .ok offline) :
    offline = ⟨"user-history-snapshot-v1", i.userId, reference,
      historyEntries (exportedFeatures db text config)
        (lastClicks db text config i.userId reference)⟩ := by
  have hclicks : ((exportedEvents db text config).filter fun e =>
      HistoryClick i.userId reference e).Perm (db.historyClicks text i.userId reference) :=
    historyClicks_exportedEvents hi hstop hextraction
  have hties : (db.historyClicks text i.userId reference).Pairwise
      fun a b => compareOccurred a b ≠ .eq :=
    compareOccurred_ne_eq (nodup_historyClicks i.userId reference)
  rw [eq_of_buildHistorySnapshot h, buildHistorySnapshot_eq_ok nodup_exportedFeatures h,
    Lib.stableSort_eq_of_perm hclicks.symm hties |>.symm]
  rfl

/-- **When training and serving see the same history.**  The builder reconstructs a snapshot for
    every impression that becomes a row, and the snapshot that is served at its reference time is
    the same exactly when the newest feature of each of the last clicks is of the encoder that the
    export is configured with. -/
theorem fetchUserHistory_eq_iff (rt : Runtime F) (slack : Nat) {i : Impression}
    {row : RankingDatasetRow F} (hi : i ∈ exportedImpressions db config)
    (hrow : rankingOutcome rt config (exportedEvents db text config)
      (exportedFeatures db text config) i = .ok (.row row)) :
    ∃ reference offline, referenceAt i = .ok reference
      ∧ buildHistorySnapshot i.userId reference (exportedEvents db text config)
          (exportedFeatures db text config) config = .ok offline
      ∧ row.history = rankingHistory rt config.salt offline.entries
      ∧ (fetchUserHistory db text config slack i.userId reference = .ok offline
          ↔ Parity db text config i.userId reference) := by
  obtain ⟨_, _, _, -, -, -, -, hmade⟩ := rankingOutcome_eq_row hrow
  obtain ⟨reference, _, _, _, offline, hreference, hserved, -, -, -, hoffline, rfl⟩ :=
    rankingRow_eq_ok hmade
  have hextraction := reference_le_extraction hrow hreference
  have hwindow : i.servedAt < config.stop :=
    (of_decide_eq_true (List.mem_filter.mp (Lib.mem_stableSort.mp hi)).2).2
  have hstop : reference.micros ≤ config.stop.micros := by
    simp only [Timestamp.lt_iff, Timestamp.le_iff] at hwindow hserved
    omega
  refine ⟨reference, offline, hreference, hoffline, rfl, ?_⟩
  have hentries := entries_of_exported hi hstop hextraction hoffline
  rw [fetchUserHistory_eq, hentries, Except.ok.injEq, HistorySnapshot.mk.injEq,
    ← historyEntries_eq_iff slack hi hstop hextraction]
  exact ⟨fun h => h.2.2.2, fun h => ⟨rfl, rfl, rfl, h⟩⟩

/-! ### An example -/

private theorem aware_inJanuary (day hour : Nat) :
    (⟨2026, 1, day, hour, 0, 0, 0, some 0⟩ : Python.Datetime).utcoffset.isSome = true := rfl

/-- A time of January 2026, UTC. -/
private def inJanuary (day hour : Nat) : Timestamp :=
  ⟨⟨2026, 1, day, hour, 0, 0, 0, some 0⟩, aware_inJanuary day hour⟩

/-- Texts are their own hashes. -/
private def plain : Runtime Int where
  sha256 text := text
  hmacSha256 _ text := text
  lower text := text
  islower _ := true
  isfinite _ := true
  unitNorm _ := true

private def exportConfig : DatasetConfig :=
  .ofTimes (inJanuary 10 0) (inJanuary 11 0) (inJanuary 20 0) (by decide) (by decide)

/-- User 5 is served post 1, ranked an hour before. -/
private def servedPost : Impression :=
  ⟨11, 12, 5, 1, 0, "ranked", "m",
    [("schema_version", .str "rank-features-v1"), ("topic_relevance", .none), ("freshness", .none),
      ("safety_score", .none), ("candidate_source", .str "follow"), ("is_followed_author", .none),
      ("author_affinity", .none), ("heuristic_score", .none), ("ml_score", .none),
      ("preference_observed_at", .str "2026-01-10T05:00:00Z")], inJanuary 10 6⟩

/-- The user has clicked post 9 before, and sees post 1. -/
private def clickAndVisible : List EventRow :=
  [⟨21, none, 5, 9, "click", none, [("event_version", .str "v2")], inJanuary 5 0, inJanuary 5 0⟩,
    ⟨22, some 11, 5, 1, "visible", none, [("event_version", .str "v2")], inJanuary 10 7,
      inJanuary 10 7⟩]

/-- An embedding of post 9. -/
private def embedded (id : Nat) (encoderVersion : String) (embedding : List Int) (computedAt : Timestamp) :
    ArticleFeatureRecord Int :=
  ⟨id, 9, encoderVersion, "66785409653e72800245bb8789022996744d8421205c30633d6487784782a492", embedding,
    inJanuary 1 0, computedAt⟩

/-- Post 9 is embedded. -/
private def oneEncoder : Database Int where
  impressions := [servedPost]
  events := clickAndVisible
  features := [embedded 31 pinnedEncoderVersion [1, 0] (inJanuary 1 0)]
  impressions_nodup := by decide
  events_nodup := by decide
  features_nodup := by decide

/-- The version of another encoder. -/
private def newerEncoder : String :=
  "intfloat/multilingual-e5-base@d13f1b27baf31030b7fd040960d60d909913633f"

/-- Post 9 is embedded by a newer encoder, too. -/
private def twoEncoders : Database Int :=
  { oneEncoder with
    features := [embedded 31 pinnedEncoderVersion [1, 0] (inJanuary 1 0),
      embedded 32 newerEncoder [0, 1] (inJanuary 2 0)]
    features_nodup := by decide }

/-- No value has a text but strings. -/
private def noText : Value → String := fun _ => ""

private theorem row_of_oneEncoder :
    ((rankingOutcome plain exportConfig (exportedEvents oneEncoder noText exportConfig)
      (exportedFeatures oneEncoder noText exportConfig) servedPost).toOption.bind
        Outcome.toRow).isSome := by
  decide +kernel

private theorem outcome_eq_of_toRow {x : Except Raised (Outcome Int)}
    (h : (x.toOption.bind Outcome.toRow).isSome) :
    x = .ok (.row ((x.toOption.bind Outcome.toRow).get h)) := by
  cases x with
  | error raised => cases h
  | ok outcome =>
    cases outcome with
    | row row => rfl
    | servedWithoutVisible => cases h
    | immature => cases h
    | unsupportedFeatureSchema => cases h

/-- With one encoder, the history of the row is the one that is served. -/
theorem fetchUserHistory_eq_iff_oneEncoder :
    ∃ reference offline, referenceAt servedPost = .ok reference
      ∧ buildHistorySnapshot 5 reference (exportedEvents oneEncoder noText exportConfig)
          (exportedFeatures oneEncoder noText exportConfig) exportConfig = .ok offline
      ∧ (((rankingOutcome plain exportConfig (exportedEvents oneEncoder noText exportConfig)
          (exportedFeatures oneEncoder noText exportConfig) servedPost).toOption.bind
            Outcome.toRow).get row_of_oneEncoder).history
        = rankingHistory plain exportConfig.salt offline.entries
      ∧ (fetchUserHistory oneEncoder noText exportConfig 50 5 reference = .ok offline
          ↔ Parity oneEncoder noText exportConfig 5 reference) :=
  fetchUserHistory_eq_iff plain 50 (i := servedPost)
    (Lib.mem_stableSort.mpr (List.mem_filter.mpr ⟨List.mem_singleton_self _, by decide +kernel⟩))
    (outcome_eq_of_toRow row_of_oneEncoder)

/-- With two, the row has the feature of the old one, and the new one is served. -/
theorem history_of_two_encoders :
    (exportedImpressions twoEncoders exportConfig).map Impression.id = [servedPost.id]
      ∧ ((rankingOutcome plain exportConfig (exportedEvents twoEncoders noText exportConfig)
          (exportedFeatures twoEncoders noText exportConfig) servedPost).toOption.bind
            Outcome.toRow).map (fun row => row.history.map fun entry => entry.article.encoderVersion)
        = some [some pinnedEncoderVersion]
      ∧ (fetchUserHistory twoEncoders noText exportConfig 50 5 (inJanuary 10 5)).toOption.map
          (fun snapshot => snapshot.entries.map HistoryEntry.encoderVersion)
        = some [newerEncoder] := by
  decide +kernel

end Parity

end Oecophylla.Recommendation
