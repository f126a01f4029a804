import Oecophylla.Ingestion.Handler

namespace Oecophylla.Ingestion

/-!
# Conflicting event identities

The label contract: an event that repeats an event id with another payload is rejected.  The
handler recognises a repeated event by its client event id alone, once among the items of the
request and once in the table, and counts it as a duplicate.

* `Conflicts` — an item repeats the id of an earlier item, or of a stored event of the user, with
  another payload;
* `Refused` — the reasons for which the handler rejects an item;
* `exists_error_iff_refused` — a request reports exactly the refused items;
* `rejectsConflicts_iff` — when conflicts are rejected.
-/

/-! ### Payloads -/

/-- Two submitted events have one payload; metadata are compared by their canonical texts. -/
structure RawBehaviorEvent.SamePayload (a b : RawBehaviorEvent) : Prop where
  postId : a.postId = b.postId
  impressionId : a.impressionId = b.impressionId
  sessionId : a.sessionId = b.sessionId
  eventType : a.eventType = b.eventType
  labelVersion : a.labelVersion = b.labelVersion
  dwellMs : a.dwellMs = b.dwellMs
  metadata : Label.Rust.serde.write a.metadata = Label.Rust.serde.write b.metadata
  occurredAt : a.occurredAt = b.occurredAt

/-- A stored row has the payload of an event. -/
structure BehaviorRow.HasPayload (row : BehaviorRow) (event : NewBehaviorEvent) : Prop where
  postId : row.postId = event.postId
  impressionId : row.impressionId = event.impressionId
  sessionId : row.sessionId = event.sessionId
  eventType : row.eventType = event.eventType
  dwellMs : row.dwellMs = event.dwellMs
  metadata : (jsonb event.metadata).map Label.Rust.serde.write
    = some (Label.Rust.serde.write row.metadata)
  occurredAt : row.occurredAt = event.occurredAt

section Conflicts

variable (cfg : Config) (pkg : Packages) (db : Database) (req : Request)

/-- The item at a position, as it was submitted. -/
def Request.rawAt (position : Nat) : Option RawBehaviorEvent :=
  req.items[position]?.bind fun item => (pkg.fromValue item.value).toOption

/-- An earlier item has the client event id, and another payload. -/
def ConflictsWithSubmitted (position : Nat) : Prop :=
  ∃ earlier < position, ∃ a b, req.rawAt pkg earlier = some a ∧ req.rawAt pkg position = some b
    ∧ a.clientEventId = b.clientEventId ∧ ¬ a.SamePayload b

/-- A stored event of the user has the client event id, and another payload. -/
def ConflictsWithStored (position : Nat) : Prop :=
  ∃ v ∈ req.parsed cfg pkg, v.index = position ∧ ∃ row ∈ db.behaviorEvents,
    row.userId = req.userId ∧ row.clientEventId = v.event.clientEventId ∧ ¬ row.HasPayload v.event

/-- An item conflicts with an event before it. -/
def Conflicts (position : Nat) : Prop :=
  ConflictsWithSubmitted pkg req position ∨ ConflictsWithStored cfg pkg db req position

/-- The response reports an item as rejected. -/
def BehaviorBatchResponse.Rejects (response : BehaviorBatchResponse) (position : Nat) : Prop :=
  ∃ e ∈ response.errors, e.index = position

/-- An item is neither rejected nor stored. -/
def CountedDuplicate (db' : Database) (response : BehaviorBatchResponse) (position : Nat) : Prop :=
  ∃ item, req.items[position]? = some item ∧ ¬ response.Rejects position
    ∧ ¬ ∃ row ∈ db'.behaviorEvents, row.id = item.id

/-- **Conflicting identities are rejected**, and only equal payloads are duplicates. -/
structure RejectsConflicts (db' : Database) (response : BehaviorBatchResponse) : Prop where
  rejected : ∀ position, Conflicts cfg pkg db req position → response.Rejects position
  duplicate : ∀ position, CountedDuplicate req db' response position →
    ¬ Conflicts cfg pkg db req position

/-- No valid item before this one has its client event id. -/
def FirstOfClient (v : ValidatedBehaviorEvent) : Prop :=
  ∀ w ∈ req.parsed cfg pkg, w.index < v.index → w.event.clientEventId ≠ v.event.clientEventId

/-- **Why an item is rejected.**  It is invalid; or it is the first valid one with its client event
    id, and its post does not exist or it fails the impression check. -/
def Refused (position : Nat) : Prop :=
  (∃ item e, req.items[position]? = some item
      ∧ readItem cfg pkg req.now position item = .error e)
    ∨ ∃ v ∈ req.parsed cfg pkg, v.index = position ∧ FirstOfClient cfg pkg req v
      ∧ ((db.post v.event.postId).isSome →
        ¬ (Owned db req.userId v.event ∨ Lent cfg pkg db req v))

end Conflicts

variable {cfg : Config} {pkg : Packages} {db db' : Database} {req : Request}
  {response : BehaviorBatchResponse}

/-! ### The first item of each client event id -/

/-- The read items are in the order of the request. -/
theorem pairwise_index_parsed :
    (req.parsed cfg pkg).Pairwise fun v w => v.index < w.index := by
  have hpositions : req.items.zipIdx.Pairwise fun p q => p.2 < q.2 := by
    have hsnd : (req.items.zipIdx.map Prod.snd).Pairwise (· < ·) := by
      rw [List.zipIdx_map_snd]
      exact List.pairwise_lt_range'
    exact List.pairwise_map.mp hsnd
  unfold Request.parsed readItems oks
  rw [List.pairwise_filterMap, List.pairwise_map]
  apply hpositions.imp
  intro p q hpq v hv w hw
  have hread : ∀ {r : Item × Nat} {u : ValidatedBehaviorEvent},
      (readItem cfg pkg req.now r.2 r.1).toOption = some u → u.index = r.2 := by
    intro r u hu
    cases hr : readItem cfg pkg req.now r.2 r.1 with
    | error e => simp [hr, Except.toOption] at hu
    | ok x =>
      obtain rfl : x = u := by simpa [hr, Except.toOption] using hu
      exact (readItem_eq_ok hr).1
  rw [hread hv, hread hw]
  exact hpq

/-- The kept items are the first ones of their client event ids. -/
theorem mem_distinct_iff {v : ValidatedBehaviorEvent} :
    v ∈ req.distinct cfg pkg ↔ v ∈ req.parsed cfg pkg ∧ FirstOfClient cfg pkg req v := by
  have hindex := @pairwise_index_parsed cfg pkg req
  unfold Request.distinct retainFirst FirstOfClient
  rw [Lib.mem_newRows_iff]
  constructor
  · rintro ⟨-, before, after, hsplit, hfree⟩
    refine ⟨by rw [hsplit]; simp, fun w hw hlt heq => hfree ⟨w, ?_, heq⟩⟩
    rw [hsplit] at hw hindex
    rcases List.mem_append.mp hw with hw | hw
    · exact hw
    · -- what comes later has a later position
      have hlater := (List.pairwise_append.mp hindex).2.1
      rcases List.mem_cons.mp hw with rfl | hw
      · omega
      · have := (List.pairwise_cons.mp hlater).1 w hw
        omega
  · rintro ⟨hv, hfirst⟩
    obtain ⟨before, after, hsplit⟩ := List.append_of_mem hv
    refine ⟨by simp [Lib.Taken], before, after, hsplit, ?_⟩
    rintro ⟨w, hw, heq⟩
    have hmem : w ∈ req.parsed cfg pkg := by
      rw [hsplit]
      exact List.mem_append_left _ hw
    rw [hsplit] at hindex
    exact hfirst w hmem ((List.pairwise_append.mp hindex).2.2 w hw v (by simp)) heq

/-! ### What a response reports -/

/-- **The errors of a request** are at the positions of the refused items. -/
theorem exists_error_iff_refused {position : Nat} :
    (∃ e ∈ req.errors cfg pkg db, e.index = position) ↔ Refused cfg pkg db req position := by
  unfold Request.errors Refused
  simp only [List.mem_append, List.mem_map, List.mem_filter]
  constructor
  · rintro ⟨e, (hread | ⟨v, ⟨hv, hpost⟩, rfl⟩) | ⟨v, ⟨hready, himpression⟩, rfl⟩, rfl⟩
    · obtain ⟨index, item, hitem, hread⟩ := mem_readItems.mp (mem_errorsOf.mp hread)
      rw [index_of_readItem_eq_error hread]
      exact .inl ⟨item, e, hitem, hread⟩
    · obtain ⟨hparsed, hfirst⟩ := mem_distinct_iff.mp hv
      refine .inr ⟨v, hparsed, rfl, hfirst, fun hsome => ?_⟩
      rw [(postExists_iff hv).mpr hsome] at hpost
      contradiction
    · obtain ⟨hparsed, hfirst⟩ := mem_distinct_iff.mp (mem_ready_iff.mp hready).1
      refine .inr ⟨v, hparsed, rfl, hfirst, fun _ hallowed => ?_⟩
      rw [(impressionAllowed_iff hready).mpr hallowed] at himpression
      contradiction
  · rintro (⟨item, e, hitem, hread⟩ | ⟨v, hparsed, rfl, hfirst, hrefused⟩)
    · exact ⟨e, .inl (.inl (mem_errorsOf.mpr (mem_readItems.mpr ⟨position, item, hitem, hread⟩))),
        index_of_readItem_eq_error hread⟩
    · have hdistinct := mem_distinct_iff.mpr ⟨hparsed, hfirst⟩
      by_cases hsome : (db.post v.event.postId).isSome
      · have hready := mem_ready_iff.mpr ⟨hdistinct, hsome⟩
        have hnot : ¬ impressionAllowed (req.validImpressions cfg pkg db) v = true :=
          fun hallowed => hrefused hsome ((impressionAllowed_iff hready).mp hallowed)
        exact ⟨_, .inr ⟨v, ⟨hready, by simpa using hnot⟩, rfl⟩, rfl⟩
      · have hnot : ¬ postExists db (req.distinct cfg pkg) v = true :=
          fun hexists => hsome ((postExists_iff hdistinct).mp hexists)
        exact ⟨_, .inl (.inr ⟨v, ⟨hdistinct, by simpa using hnot⟩, rfl⟩), rfl⟩

variable (hids : req.FreshIds db) (h : ingestBehaviorEvents cfg pkg db req = .ok (db', response))

include hids h in
/-- **When conflicting identities are rejected**: when every item that conflicts with an event
    before it is refused for another reason. -/
theorem rejectsConflicts_iff :
    RejectsConflicts cfg pkg db req db' response
      ↔ ∀ position, Conflicts cfg pkg db req position → Refused cfg pkg db req position := by
  have hreports : ∀ position, response.Rejects position ↔ Refused cfg pkg db req position := by
    intro position
    rw [← exists_error_iff_refused]
    unfold BehaviorBatchResponse.Rejects
    simp only [(of_ingestBehaviorEvents_eq_ok hids h).2]
  constructor
  · intro hrejects position hconflict
    exact (hreports position).mp (hrejects.rejected position hconflict)
  · intro hrefused
    have hrejected : ∀ position, Conflicts cfg pkg db req position → response.Rejects position :=
      fun position hconflict => (hreports position).mpr (hrefused position hconflict)
    refine ⟨hrejected, fun position hduplicate hconflict => ?_⟩
    obtain ⟨item, -, hnot, -⟩ := hduplicate
    exact hnot (hrejected position hconflict)

/-! ### Two clicks with one id -/

/-- A click with the client event id 3. -/
def clickOf (postId id : Uuid) : Item where
  value := .obj [("client_event_id", uuidText 3), ("post_id", uuidText postId),
    ("event_type", .str "click"), ("metadata", .obj [("target", .str "post_detail")]),
    ("occurred_at", .str "1970-01-01T00:00:00Z")]
  id := id

/-- The posts 1 and 2. -/
def twoPosts : Database where
  posts := [⟨1, [], [], 0⟩, ⟨2, [], [], 0⟩]
  impressions := []
  behaviorEvents := []
  outbox := []

/-- The user 7 clicks on the post 1 and then on another one. -/
private def sameId (postId : Uuid) : Request where
  userId := 7
  now := 0
  dbNow := 0
  items := [clickOf 1 100, clickOf postId 101]

/-- The configuration with the second label contract. -/
def ingestConfig : Config := ⟨10000, "v2", false⟩

private theorem sameId_answered :
    (ingestBehaviorEvents ingestConfig smallPackages twoPosts (sameId 1)).toOption.isSome := by
  rfl

/-- A click and its retry. -/
theorem rejectsConflicts_iff_retry :
    RejectsConflicts ingestConfig smallPackages twoPosts (sameId 1)
        (Option.get _ sameId_answered).1 (Option.get _ sameId_answered).2
      ↔ ∀ position, Conflicts ingestConfig smallPackages twoPosts (sameId 1) position →
        Refused ingestConfig smallPackages twoPosts (sameId 1) position :=
  rejectsConflicts_iff (by decide) rfl

/-- **Counterexample.**  The second click is on another post, and is counted as a duplicate. -/
theorem conflict_counted_as_duplicate :
    ¬ ∀ (cfg : Config) (pkg : Packages) (db db' : Database) (req : Request)
      (response : BehaviorBatchResponse), req.FreshIds db →
      ingestBehaviorEvents cfg pkg db req = .ok (db', response) →
      RejectsConflicts cfg pkg db req db' response := by
  intro hall
  have hanswer : (ingestBehaviorEvents ingestConfig smallPackages twoPosts (sameId 2)).toOption.map
      (fun r => r.2.errors) = some [] := by rfl
  obtain ⟨r, hr, herrors⟩ := Option.map_eq_some_iff.mp hanswer
  have hok : ingestBehaviorEvents ingestConfig smallPackages twoPosts (sameId 2) = .ok (r.1, r.2) := by
    cases h : ingestBehaviorEvents ingestConfig smallPackages twoPosts (sameId 2) with
    | error e => simp [h, Except.toOption] at hr
    | ok r' => simpa [h, Except.toOption] using hr
  have hconflict : Conflicts ingestConfig smallPackages twoPosts (sameId 2) 1 := by
    refine .inl ⟨0, by decide, _, _, rfl, rfl, rfl, fun hsame => ?_⟩
    exact absurd hsame.postId (by decide)
  obtain ⟨e, he, -⟩ := (hall _ _ _ _ _ _ (by decide) hok).rejected 1 hconflict
  rw [herrors] at he
  contradiction

end Oecophylla.Ingestion
