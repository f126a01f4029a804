import Oecophylla.Ingestion.Handler

namespace Oecophylla.Ingestion

/-!
# Whether the events of a batch are independent

`valid_impression_ids` checks the pairs of all events and returns impression *ids*, while the
insert enforces the pair of every single row, and one row that is refused aborts the
statement.

* `Stored` — an item is in the table after the request; a request that fails leaves nothing;
* `EventWise` — every item fares as if it were submitted alone, and an event that does not own
  its impression is rejected by itself;
* `NoneBlocks` — the condition under which that is so: no event borrows the impression of
  another one, and no event is refused by a cast or a check of the table.
-/

variable (cfg : Config) (pkg : Packages) (db : Database) (req : Request)

/-- The request with a single item. -/
def Request.alone (item : Item) : Request := { req with items := [item] }

/-- The rows after a request. -/
def behaviorEventsAfter : List BehaviorRow :=
  match ingestBehaviorEvents cfg pkg db req with
  | .ok r => r.1.behaviorEvents
  | .error _ => db.behaviorEvents

/-- The item is stored after the request. -/
def Stored (item : Item) : Prop := ∃ row ∈ behaviorEventsAfter cfg pkg db req, row.id = item.id

/-- **Event-wise independence.** -/
structure EventWise : Prop where
  stored_iff : ∀ item ∈ req.items,
    Stored cfg pkg db req item ↔ Stored cfg pkg db (req.alone item) item
  rejected : ∀ v ∈ req.parsed cfg pkg, ¬ Owned db req.userId v.event →
    ∃ r, ingestBehaviorEvents cfg pkg db req = .ok r ∧ ∃ e ∈ r.2.errors, e.index = v.index

/-- An event of the request whose post exists. -/
def Eligible (v : ValidatedBehaviorEvent) : Prop :=
  v ∈ req.parsed cfg pkg ∧ (db.post v.event.postId).isSome

/-- **No event blocks another one.**  Events that name the same impression own it together; and
    the casts and the checks accept every event, unless there is nothing else to store or to
    reject. -/
def NoneBlocks : Prop :=
  (∀ v w, Eligible cfg pkg db req v → Eligible cfg pkg db req w →
    w.event.impressionId = v.event.impressionId →
    Owned db req.userId w.event → Owned db req.userId v.event)
  ∧ ((∀ v, Eligible cfg pkg db req v → Owned db req.userId v.event →
      Insertable db req.userId req.dbNow v.event)
    ∨ ((∀ v, Eligible cfg pkg db req v → Owned db req.userId v.event →
        Insertable db req.userId req.dbNow v.event → ¬ Free db v.event)
      ∧ ∀ v ∈ req.parsed cfg pkg, Owned db req.userId v.event))

variable {cfg pkg db req}

/-! ### What a request stores -/

section Stored

variable (hclients : req.DistinctClients cfg pkg) (hids : req.FreshIds db)
  (hsize : req.items ≠ [] ∧ req.items.length ≤ maxBehaviorBatchSize)

include hids in
theorem not_mem_of_freshIds {item : Item} (hitem : item ∈ req.items) :
    ¬ ∃ row ∈ db.behaviorEvents, row.id = item.id := by
  rintro ⟨row, hrow, hid⟩
  exact (List.nodup_append.mp hids).2.2 _ (List.mem_map_of_mem hrow) _
    (List.mem_map_of_mem hitem) hid

include hids hsize in
/-- An item is stored when the request succeeds and keeps it, and its client event id is free. -/
theorem stored_iff {item : Item} (hitem : item ∈ req.items) :
    Stored cfg pkg db req item ↔ req.Accepted cfg pkg db
      ∧ ∃ v ∈ req.retained cfg pkg db, v.event.id = item.id ∧ Free db v.event := by
  unfold Stored behaviorEventsAfter
  have hold := not_mem_of_freshIds hids hitem
  cases hingest : ingestBehaviorEvents cfg pkg db req with
  | error e =>
    have hno : ¬ req.Accepted cfg pkg db := by
      rw [← exists_ingestBehaviorEvents_eq_ok hids hsize, hingest]
      simp
    exact iff_of_false hold fun h => hno h.1
  | ok r =>
    have haccepted := (exists_ingestBehaviorEvents_eq_ok hids hsize).mp ⟨r, hingest⟩
    show (∃ row ∈ r.1.behaviorEvents, row.id = item.id) ↔ _
    rw [(of_ingestBehaviorEvents_eq_ok hids hingest).1]
    constructor
    · rintro ⟨row, hrow, hid⟩
      rcases List.mem_append.mp hrow with hrow | hrow
      · exact absurd ⟨row, hrow, hid⟩ hold
      · obtain ⟨v, hv, hfree, hfor⟩ := mem_rows.mp hrow
        exact ⟨haccepted, v, hv, (rowFor_eq_some hfor).1.symm.trans hid, hfree⟩
    · rintro ⟨-, v, hv, hid, hfree⟩
      obtain ⟨row, hfor⟩ := exists_rowFor (haccepted v hv).1 (post_isSome_of_mem_retained hv)
      refine ⟨row, ?_, (rowFor_eq_some hfor).1.trans hid⟩
      exact List.mem_append_right _ (mem_rows.mpr ⟨v, hv, hfree, hfor⟩)

/-! ### One item alone -/

theorem mem_parsed_alone {item : Item} {v : ValidatedBehaviorEvent} :
    v ∈ (req.alone item).parsed cfg pkg ↔ readItem cfg pkg req.now 0 item = .ok v := by
  rw [mem_parsed]
  constructor
  · rintro ⟨item', hitem, hread⟩
    obtain ⟨hindex, rfl⟩ : v.index = 0 ∧ item = item' := by
      simpa [Request.alone, List.getElem?_singleton] using hitem
    exact hindex ▸ hread
  · intro hread
    rw [(readItem_eq_ok hread).1]
    exact ⟨item, rfl, hread⟩

theorem parsed_alone_subsingleton {item : Item} {v w : ValidatedBehaviorEvent}
    (hv : v ∈ (req.alone item).parsed cfg pkg) (hw : w ∈ (req.alone item).parsed cfg pkg) : v = w := by
  rw [mem_parsed_alone] at hv hw
  exact Except.ok.inj (hv.symm.trans hw)

theorem distinctClients_alone (item : Item) : (req.alone item).DistinctClients cfg pkg := by
  unfold Request.DistinctClients Request.parsed Request.alone readItems
  cases hread : readItem cfg pkg req.now 0 item with
  | error e => simp [oks, hread, List.filterMap_cons, Except.toOption]
  | ok v => simp [oks, hread, Except.toOption]

include hids in
theorem freshIds_alone {item : Item} (hitem : item ∈ req.items) : (req.alone item).FreshIds db := by
  apply List.Nodup.sublist _ hids
  apply List.Sublist.append (List.Sublist.refl _)
  exact List.singleton_sublist.mpr (List.mem_map_of_mem hitem)

/-- A single event passes the impression check when it owns its impression. -/
theorem mem_retained_alone {item : Item} {v : ValidatedBehaviorEvent} :
    v ∈ (req.alone item).retained cfg pkg db ↔ readItem cfg pkg req.now 0 item = .ok v
      ∧ (db.post v.event.postId).isSome ∧ Owned db req.userId v.event := by
  have hready : v ∈ (req.alone item).ready cfg pkg db ↔
      readItem cfg pkg req.now 0 item = .ok v ∧ (db.post v.event.postId).isSome := by
    rw [mem_ready (distinctClients_alone item), mem_parsed_alone]
  rw [mem_retained, hready, and_assoc]
  apply and_congr_right
  intro hread
  apply and_congr_right
  intro _
  constructor
  · rintro (howned | ⟨-, w, hw, -, howned⟩)
    · exact howned
    · -- the event that would lend its impression is the event itself
      have hwv : w = v := parsed_alone_subsingleton
        ((mem_ready (distinctClients_alone item)).mp hw).1 (mem_parsed_alone.mpr hread)
      exact hwv ▸ howned
  · exact .inl

include hids in
/-- When an item that is submitted alone is stored. -/
theorem stored_alone_iff {item : Item} (hitem : item ∈ req.items) :
    Stored cfg pkg db (req.alone item) item ↔ ∃ v, readItem cfg pkg req.now 0 item = .ok v
      ∧ (db.post v.event.postId).isSome ∧ Owned db req.userId v.event
      ∧ Insertable db req.userId req.dbNow v.event ∧ Free db v.event := by
  have hsingle : (req.alone item).items ≠ []
      ∧ (req.alone item).items.length ≤ maxBehaviorBatchSize := by
    simp [Request.alone, maxBehaviorBatchSize]
  rw [stored_iff (freshIds_alone hids hitem) hsingle
    (List.mem_singleton_self item)]
  constructor
  · rintro ⟨haccepted, v, hv, -, hfree⟩
    obtain ⟨hread, hpost, howned⟩ := mem_retained_alone.mp hv
    exact ⟨v, hread, hpost, howned, (haccepted v hv).1, hfree⟩
  · rintro ⟨v, hread, hpost, howned, hinsert, hfree⟩
    refine ⟨fun w hw => ?_, v, mem_retained_alone.mpr ⟨hread, hpost, howned⟩,
      (readItem_eq_ok hread).2.1, hfree⟩
    have hwv : w = v := parsed_alone_subsingleton
      (mem_parsed_alone.mpr (mem_retained_alone.mp hw).1) (mem_parsed_alone.mpr hread)
    exact hwv ▸ ⟨hinsert, fun _ => howned⟩

/-! ### The item of an event -/

include hids in
/-- An event with the id of an item was read from that item. -/
theorem readItem_of_id {v : ValidatedBehaviorEvent} {item : Item} (hitem : item ∈ req.items)
    (hv : v ∈ req.parsed cfg pkg) (hid : v.event.id = item.id) :
    readItem cfg pkg req.now v.index item = .ok v := by
  obtain ⟨item', hat, hread⟩ := mem_parsed.mp hv
  have hnodup : (req.items.map Item.id).Nodup := (List.nodup_append.mp hids).2.1
  have hsame : item' = item :=
    List.inj_on_of_nodup_map hnodup (List.mem_of_getElem? hat) hitem
      ((readItem_eq_ok hread).2.1.symm.trans hid)
  exact hsame ▸ hread

/-- An item that can be read alone was read in the request. -/
theorem exists_parsed_of_readItem {item : Item} (hitem : item ∈ req.items)
    {v : ValidatedBehaviorEvent} (hread : readItem cfg pkg req.now 0 item = .ok v) :
    ∃ w ∈ req.parsed cfg pkg, w.event = v.event := by
  obtain ⟨index, hat⟩ := List.mem_iff_getElem?.mp hitem
  exact ⟨{ v with index := index }, mem_parsed.mpr ⟨item, hat, (readItem_eq_ok hread).2.2 index⟩, rfl⟩

/-- Events of the request are told apart by their positions. -/
theorem eq_of_index_eq {v w : ValidatedBehaviorEvent} (hv : v ∈ req.parsed cfg pkg)
    (hw : w ∈ req.parsed cfg pkg) (h : v.index = w.index) : v = w := by
  obtain ⟨item, hat, hread⟩ := mem_parsed.mp hv
  obtain ⟨item', hat', hread'⟩ := mem_parsed.mp hw
  rw [h] at hat hread
  obtain rfl := Option.some.inj (hat.symm.trans hat')
  exact Except.ok.inj (hread.symm.trans hread')

include hclients in
/-- A request has an error at the position of an event when it does not keep the event. -/
theorem exists_error_iff {v : ValidatedBehaviorEvent} (hv : v ∈ req.parsed cfg pkg) :
    (∃ e ∈ req.errors cfg pkg db, e.index = v.index) ↔ v ∉ req.retained cfg pkg db := by
  unfold Request.errors Request.retained
  simp only [List.mem_append, List.mem_map, List.mem_filter, distinct_eq_parsed hclients]
  constructor
  · rintro ⟨e, (hread | ⟨w, ⟨hw, hpost⟩, rfl⟩) | ⟨w, ⟨hw, himpression⟩, rfl⟩, hindex⟩ ⟨hready, hkept⟩
    · -- the item at that position was read
      obtain ⟨index, item, hat, hitem⟩ := mem_readItems.mp (mem_errorsOf.mp hread)
      obtain ⟨item', hat', hitem'⟩ := mem_parsed.mp hv
      rw [← hindex, index_of_readItem_eq_error hitem, hat, Option.some.injEq] at hat'
      rw [← hindex, index_of_readItem_eq_error hitem, ← hat', hitem] at hitem'
      contradiction
    · obtain rfl := eq_of_index_eq hw hv hindex
      rw [Request.ready, distinct_eq_parsed hclients, List.mem_filter] at hready
      simp [hready.2] at hpost
    · obtain rfl := eq_of_index_eq ((mem_ready hclients).mp hw).1 hv hindex
      simp [hkept] at himpression
  · intro hno
    by_cases hready : v ∈ req.ready cfg pkg db
    · exact ⟨_, .inr ⟨v, ⟨hready, by simpa [hready] using hno⟩, rfl⟩, rfl⟩
    · have hmissing : ¬ postExists db (req.parsed cfg pkg) v = true := by
        rw [Request.ready, distinct_eq_parsed hclients, List.mem_filter, not_and] at hready
        exact hready hv
      exact ⟨_, .inl (.inr ⟨v, ⟨hv, by simpa using hmissing⟩, rfl⟩), rfl⟩

/-! ### When the events are independent -/

/-- An event that the request keeps is one whose post exists. -/
theorem eligible_iff (hclients : req.DistinctClients cfg pkg) {v : ValidatedBehaviorEvent} :
    Eligible cfg pkg db req v ↔ v ∈ req.ready cfg pkg db := (mem_ready hclients).symm

include hclients in
/-- When no impression is borrowed, a request keeps the events that own theirs. -/
theorem mem_retained_of_owned
    (hlent : ∀ v w, Eligible cfg pkg db req v → Eligible cfg pkg db req w →
      w.event.impressionId = v.event.impressionId →
      Owned db req.userId w.event → Owned db req.userId v.event)
    {v : ValidatedBehaviorEvent} :
    v ∈ req.retained cfg pkg db ↔ Eligible cfg pkg db req v ∧ Owned db req.userId v.event := by
  rw [mem_retained, eligible_iff hclients]
  apply and_congr_right
  intro hready
  constructor
  · rintro (howned | ⟨-, w, hw, himpression, howned⟩)
    · exact howned
    · exact hlent v w ((eligible_iff hclients).mpr hready) ((eligible_iff hclients).mpr hw)
        himpression howned
  · exact .inl

include hclients hids hsize in
/-- Where nothing is blocked, every item fares as if it were alone. -/
theorem eventWise_of_noneBlocks (h : NoneBlocks cfg pkg db req) : EventWise cfg pkg db req := by
  obtain ⟨hlent, hinsert⟩ := h
  have hretained := @mem_retained_of_owned _ _ _ _ hclients hlent
  -- an item that is stored in the batch would be stored alone
  have hbatch : ∀ item ∈ req.items, Stored cfg pkg db req item →
      Stored cfg pkg db (req.alone item) item := by
    intro item hitem hstored
    obtain ⟨haccepted, v, hv, hid, hfree⟩ := (stored_iff hids hsize hitem).mp hstored
    obtain ⟨⟨hparsed, hpost⟩, howned⟩ := hretained.mp hv
    have hread := readItem_of_id hids hitem hparsed hid
    exact (stored_alone_iff hids hitem).mpr
      ⟨{ v with index := 0 }, (readItem_eq_ok hread).2.2 0, hpost, howned, (haccepted v hv).1, hfree⟩
  rcases hinsert with hall | ⟨hnothing, howned⟩
  · have haccepted : req.Accepted cfg pkg db := by
      intro v hv
      obtain ⟨heligible, howned⟩ := hretained.mp hv
      exact ⟨hall v heligible howned, fun _ => howned⟩
    refine ⟨fun item hitem => ⟨hbatch item hitem, fun halone => ?_⟩, fun v hv hnot => ?_⟩
    · obtain ⟨v, hread, hpost, howned, -, hfree⟩ := (stored_alone_iff hids hitem).mp halone
      obtain ⟨w, hw, hevent⟩ := exists_parsed_of_readItem hitem hread
      rw [← hevent] at hpost howned hfree
      have hid : w.event.id = item.id := by rw [hevent, (readItem_eq_ok hread).2.1]
      exact (stored_iff hids hsize hitem).mpr
        ⟨haccepted, w, hretained.mpr ⟨⟨hw, hpost⟩, howned⟩, hid, hfree⟩
    · obtain ⟨r, hr⟩ := (exists_ingestBehaviorEvents_eq_ok hids hsize).mpr haccepted
      have hdropped : v ∉ req.retained cfg pkg db := fun hkept => hnot (hretained.mp hkept).2
      obtain ⟨e, he, hindex⟩ := (exists_error_iff hclients hv).mpr hdropped
      exact ⟨r, hr, e, ((of_ingestBehaviorEvents_eq_ok hids hr).2 e).mpr he, hindex⟩
  · refine ⟨fun item hitem => ⟨hbatch item hitem, fun halone => ?_⟩,
      fun v hv hnot => absurd (howned v hv) hnot⟩
    obtain ⟨v, hread, hpost, howned, hinsert, hfree⟩ := (stored_alone_iff hids hitem).mp halone
    obtain ⟨w, hw, hevent⟩ := exists_parsed_of_readItem hitem hread
    rw [← hevent] at hpost howned hinsert hfree
    exact absurd hfree (hnothing w ⟨hw, hpost⟩ howned hinsert)

include hclients hids hsize in
/-- Where every item fares as if it were alone, nothing is blocked. -/
theorem noneBlocks_of_eventWise (h : EventWise cfg pkg db req) : NoneBlocks cfg pkg db req := by
  have hlent : ∀ v w, Eligible cfg pkg db req v → Eligible cfg pkg db req w →
      w.event.impressionId = v.event.impressionId →
      Owned db req.userId w.event → Owned db req.userId v.event := by
    intro v w hv hw himpression howned
    by_contra hnot
    -- the borrowing event is kept, so that it cannot have an error of its own
    have hkept : v ∈ req.retained cfg pkg db := mem_retained.mpr
      ⟨(eligible_iff hclients).mp hv,
        .inr ⟨hnot, w, (eligible_iff hclients).mp hw, himpression, howned⟩⟩
    obtain ⟨r, hr, e, he, hindex⟩ := h.rejected v hv.1 hnot
    have he' := ((of_ingestBehaviorEvents_eq_ok hids hr).2 e).mp he
    exact (exists_error_iff hclients hv.1).mp ⟨e, he', hindex⟩ hkept
  have hretained := @mem_retained_of_owned _ _ _ _ hclients hlent
  refine ⟨hlent, ?_⟩
  by_cases haccepted : req.Accepted cfg pkg db
  · left
    intro v hv howned
    exact (haccepted v (hretained.mpr ⟨hv, howned⟩)).1
  · right
    refine ⟨fun v hv howned hinsert hfree => ?_, fun v hv => ?_⟩
    · obtain ⟨item, hat, hread⟩ := mem_parsed.mp hv.1
      have hitem := List.mem_of_getElem? hat
      have halone : Stored cfg pkg db (req.alone item) item := (stored_alone_iff hids hitem).mpr
        ⟨{ v with index := 0 }, (readItem_eq_ok hread).2.2 0, hv.2, howned, hinsert, hfree⟩
      have hstored := (h.stored_iff item hitem).mpr halone
      exact haccepted ((stored_iff hids hsize hitem).mp hstored).1
    · by_contra hnot
      obtain ⟨r, hr, -⟩ := h.rejected v hv hnot
      exact haccepted ((exists_ingestBehaviorEvents_eq_ok hids hsize).mp ⟨r, hr⟩)

end Stored

/-- **When the events of a batch are independent.** -/
theorem eventWise_iff (cfg : Config) (pkg : Packages) (db : Database) (req : Request)
    (hclients : req.DistinctClients cfg pkg) (hids : req.FreshIds db)
    (hsize : req.items ≠ [] ∧ req.items.length ≤ maxBehaviorBatchSize) :
    EventWise cfg pkg db req ↔ NoneBlocks cfg pkg db req :=
  ⟨noneBlocks_of_eventWise hclients hids hsize, eventWise_of_noneBlocks hclients hids hsize⟩

/-- A click on a post, with the impression that it claims to come from. -/
private def click (clientEventId postId impressionId id : Uuid) : Item where
  value := .obj [("client_event_id", uuidText clientEventId), ("post_id", uuidText postId),
    ("impression_id", uuidText impressionId), ("event_type", .str "click"),
    ("metadata", .obj [("target", .str "post_detail")]),
    ("occurred_at", .str "1970-01-01T00:00:00Z")]
  id := id

/-- The posts 1 and 2; the impression 5 was served to the user 7 for the post 1. -/
private def served : Database where
  posts := [⟨1, [], [], 0⟩, ⟨2, [], [], 0⟩]
  impressions := [⟨5, 7, 1⟩]
  behaviorEvents := []
  outbox := []

/-- Two clicks of the user 7. -/
private def clicks (postId : Uuid) : Request where
  userId := 7
  now := 0
  dbNow := 0
  items := [click 3 1 5 100, click 4 postId 5 101]

private def config : Config := ⟨10000, "v2", false⟩

private theorem distinctClients_clicks (postId : Uuid) (h : postId = 1 ∨ postId = 2) :
    (clicks postId).DistinctClients config smallPackages := by
  rcases h with rfl | rfl <;> decide +kernel

/-- Two clicks that own the impression. -/
theorem eventWise_iff_owned :
    EventWise config smallPackages served (clicks 1) ↔
      NoneBlocks config smallPackages served (clicks 1) :=
  eventWise_iff config smallPackages served (clicks 1) (distinctClients_clicks 1 (.inl rfl))
    (by decide) (by decide)

/-- **Counterexample.**  Two clicks that name one impression, which was served for the post of
    the first only: the impression check lets both pass, the foreign key refuses the second, and
    nothing is stored, although the first one alone is. -/
theorem not_eventWise_borrowed :
    (clicks 2).DistinctClients config smallPackages ∧ (clicks 2).FreshIds served
      ∧ ((clicks 2).items ≠ [] ∧ (clicks 2).items.length ≤ maxBehaviorBatchSize)
      ∧ ¬ EventWise config smallPackages served (clicks 2) := by
  refine ⟨distinctClients_clicks 2 (.inr rfl), by decide, by decide,
    fun h => ?_⟩
  have halone : Stored config smallPackages served ((clicks 2).alone (click 3 1 5 100))
      (click 3 1 5 100) := by
    have hids : (behaviorEventsAfter config smallPackages served
        ((clicks 2).alone (click 3 1 5 100))).map BehaviorRow.id = [100] := by rfl
    have hmem := hids ▸ List.mem_singleton_self 100
    exact List.mem_map.mp hmem
  have hnone : behaviorEventsAfter config smallPackages served (clicks 2) = [] := by rfl
  obtain ⟨row, hrow, -⟩ := (h.stored_iff _ (List.mem_cons_self ..)).mpr halone
  rw [hnone] at hrow
  contradiction

end Oecophylla.Ingestion
