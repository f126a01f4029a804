import Oecophylla.Telemetry.Pipeline

namespace Oecophylla.Telemetry

open Ingestion
open Lib (Taken insertAllNew newRows)

/-!
# Qualified reads of different users and posts

Client event ids are unique across users, and the outbox and the receipts know a qualified read
by an id that the client may have chosen.

* `Separate` — the condition: no event of somebody else, or about another post, has the client
  event id or the outbox id of an event that is recorded, and none makes its request fail;
* `records_step` — an action that meets the condition changes the records of a user and a post
  exactly as if they were alone;
* `noninterference` — two runs that submit the same for a user and a post record the same for them;
* `suppressed_by_visit_id` — a run that does not.
-/

section Noninterference

variable (cfg : Config) (pkg : Packages) (user post : Uuid)

/-- No event about another post takes the client event id of an event of the same request. -/
def BatchSeparate (db : Database) (req : Request) : Prop :=
  ∀ v ∈ keptAlone user db (mineEvents cfg pkg post req), ∀ w ∈ req.distinct cfg pkg,
    w.event.postId ≠ post → w.event.clientEventId ≠ v.event.clientEventId

/-- Nothing gets in the way of the events of a request about the post. -/
structure Undisturbed (db : Database) (req : Request) : Prop where
  /-- The request is not too long and not refused. -/
  size : req.items.length ≤ maxBehaviorBatchSize
  accepted : req.Accepted cfg pkg db
  /-- Nobody else has stored an event with their client event ids. -/
  stored : ∀ v ∈ keptAlone user db (mineEvents cfg pkg post req), ∀ row ∈ db.behaviorEvents,
    mineRow user post row = false → row.clientEventId ≠ v.event.clientEventId
  /-- Nobody else has an outbox row with their outbox ids. -/
  outbox : ∀ row ∈ req.outboxRows cfg pkg db, mineOutbox user post row = true →
    ∀ r ∈ db.outbox ++ req.outboxRows cfg pkg db, mineOutbox user post r = false →
      r.eventId ≠ row.eventId

/-- **The condition.**  A request of the user has no event about another post with the client event
    id of one about the post; and when it would store something about the post by itself, then
    nothing gets in the way.  A receipt for the user and the post has an id that nobody else's
    receipt has. -/
def Separate (s : State) : Action → Prop
  | .ingest req => req.userId = user →
    BatchSeparate cfg pkg user post s.db req
    ∧ (AcceptedAlone user s.db (mineCount pkg post req) req.dbNow (mineEvents cfg pkg post req) →
      newAlone user s.db req.dbNow (mineEvents cfg pkg post req)
        (s.db.behaviorEvents.filter (mineRow user post)) ≠ [] →
      Undisturbed cfg pkg user post s.db req)
  | .dispatch _ => True
  | .clean _ => True
  | .flush u envelopes => ∀ e ∈ envelopes, mineEnvelope user post e = true →
    ∀ r ∈ s.receipts ++ envelopes.map (receiptOf u), mineReceipt user post r = false →
      r.eventId ≠ e.eventId

instance (db : Database) (req : Request) : Decidable (BatchSeparate cfg pkg user post db req) :=
  inferInstanceAs (Decidable (∀ v ∈ keptAlone _ _ _, ∀ w ∈ _, _ → _))

instance (db : Database) (req : Request) : Decidable (req.Accepted cfg pkg db) :=
  inferInstanceAs (Decidable (∀ v ∈ req.retained cfg pkg db, _ ∧ _))

instance (db : Database) (req : Request) : Decidable (Undisturbed cfg pkg user post db req) :=
  decidable_of_iff
    (req.items.length ≤ maxBehaviorBatchSize ∧ req.Accepted cfg pkg db
      ∧ (∀ v ∈ keptAlone user db (mineEvents cfg pkg post req), ∀ row ∈ db.behaviorEvents,
        mineRow user post row = false → row.clientEventId ≠ v.event.clientEventId)
      ∧ ∀ row ∈ req.outboxRows cfg pkg db, mineOutbox user post row = true →
        ∀ r ∈ db.outbox ++ req.outboxRows cfg pkg db, mineOutbox user post r = false →
          r.eventId ≠ row.eventId)
    ⟨fun ⟨h₁, h₂, h₃, h₄⟩ => ⟨h₁, h₂, h₃, h₄⟩, fun h => ⟨h.size, h.accepted, h.stored, h.outbox⟩⟩

instance (s : State) : (a : Action) → Decidable (Separate cfg pkg user post s a)
  | .ingest _ => inferInstanceAs (Decidable (_ → _ ∧ (_ → _ ≠ [] → _)))
  | .dispatch _ | .clean _ => .isTrue trivial
  | .flush _ _ => inferInstanceAs (Decidable (∀ e ∈ _, _ → ∀ r ∈ _, _ → _))

variable {cfg pkg user post}

/-! ### The rows of a request about the post -/

section Request

variable {db : Database} {req : Request} (huser : req.userId = user)

/-- A kept event about the post. -/
private def good (user post : Uuid) (db : Database) (v : ValidatedBehaviorEvent) : Bool :=
  decide (v.event.postId = post)
    && ((db.post v.event.postId).isSome && decide (Owned db user v.event))

/-- The events that are kept alone are those of the request. -/
theorem map_forget_distinct (hbatch : BatchSeparate cfg pkg user post db req) :
    ((req.distinct cfg pkg).filter (good user post db)).map forget
      = keptAlone user db (mineEvents cfg pkg post req) := by
  have hmap : retainFirst (mineEvents cfg pkg post req) = (newRows
      (fun v : ValidatedBehaviorEvent => v.event.clientEventId) []
        ((req.parsed cfg pkg).filter fun v => decide (v.event.postId = post))).map forget := by
    unfold retainFirst mineEvents
    exact Lib.newRows_map forget [] _
  have hkept : keptAlone user db (mineEvents cfg pkg post req) = ((newRows
      (fun v : ValidatedBehaviorEvent => v.event.clientEventId) []
        ((req.parsed cfg pkg).filter fun v => decide (v.event.postId = post))).filter
          fun v => (db.post v.event.postId).isSome && decide (Owned db user v.event)).map forget := by
    unfold keptAlone
    rw [hmap, List.filter_map]
    rfl
  rw [hkept]
  congr 1
  refine Lib.filter_newRows (fun _ h => h) fun y hy hq => ⟨by simp [Taken], fun x hx hpx => ?_⟩
  -- `y` is kept alone
  have hmem : forget y ∈ keptAlone user db (mineEvents cfg pkg post req) := by
    rw [hkept]
    exact List.mem_map_of_mem (List.mem_filter.mpr ⟨hy, hq⟩)
  exact hbatch _ hmem x hx (by simpa using hpx)

include huser in
/-- A kept event about the post is retained. -/
theorem mem_retained_of_good {v : ValidatedBehaviorEvent} (hv : v ∈ req.distinct cfg pkg)
    (hgood : good user post db v = true) : v ∈ req.retained cfg pkg db := by
  unfold good at hgood
  simp only [Bool.and_eq_true, decide_eq_true_eq] at hgood
  exact mem_retained.mpr ⟨mem_ready_iff.mpr ⟨hv, hgood.2.1⟩, .inl (huser ▸ hgood.2.2)⟩

include huser in
/-- The rows of the request about the post are those of the events that are kept alone, as far as
    their client event ids are free. -/
theorem filter_mineRow_rows (hbatch : BatchSeparate cfg pkg user post db req)
    (haccepted : req.Accepted cfg pkg db) :
    (req.rows cfg pkg db).filter (mineRow user post)
      = (rowsAlone user db req.dbNow (mineEvents cfg pkg post req)).filter fun row =>
          ¬ Taken BehaviorRow.clientEventId db.behaviorEvents row.clientEventId := by
  have hretained : req.retained cfg pkg db = (req.distinct cfg pkg).filter fun v =>
      postExists db (req.distinct cfg pkg) v
        && impressionAllowed (req.validImpressions cfg pkg db) v := by
    unfold Request.retained Request.ready
    rw [List.filter_filter]
    apply List.filter_congr
    intro v _
    exact Bool.and_comm _ _
  unfold Request.rows freshRows rowsAlone
  rw [← map_forget_distinct hbatch, List.map_map, List.filterMap_map, List.filterMap_map,
    List.filter_filterMap, List.filter_filterMap, List.filter_filterMap, hretained,
    List.filterMap_filter, List.filterMap_filter]
  apply List.filterMap_congr
  intro v hv
  have hcond : (postExists db (req.distinct cfg pkg) v
      && impressionAllowed (req.validImpressions cfg pkg db) v) = true ↔ v ∈ req.retained cfg pkg db := by
    rw [hretained, List.mem_filter]
    exact (and_iff_right hv).symm
  dsimp only [Function.comp_apply, forget]
  rw [huser]
  cases hrow : rowFor db user req.dbNow v.event with
  | none => simp
  | some row =>
    obtain ⟨-, hclient, hrowUser, hrowPost, -, hpost⟩ := rowFor_eq_some hrow
    rw [Option.filter_some]
    by_cases hfree : Taken BehaviorRow.clientEventId db.behaviorEvents row.clientEventId
    · have htaken : (decide ¬ Taken BehaviorRow.clientEventId db.behaviorEvents row.clientEventId)
          = false := decide_eq_false (not_not.mpr hfree)
      rw [htaken, if_neg Bool.false_ne_true, Option.filter_none, ite_self, ite_self]
    · have htaken : (decide ¬ Taken BehaviorRow.clientEventId db.behaviorEvents row.clientEventId)
          = true := decide_eq_true hfree
      rw [htaken, if_pos rfl, Option.filter_some]
      have hmine : mineRow user post row = true ↔ v.event.postId = post := by
        simp [mineRow, hrowUser, hrowPost]
      have hiff : (v ∈ req.retained cfg pkg db ∧ mineRow user post row = true)
          ↔ good user post db v = true := by
        constructor
        · rintro ⟨hv', hpostEq⟩
          have hfree' : Free db v.event := by
            unfold Free
            rwa [← hclient]
          have howned := (haccepted v hv').2 hfree'
          rw [huser] at howned
          unfold good
          rw [Bool.and_eq_true, Bool.and_eq_true]
          exact ⟨decide_eq_true (hmine.mp hpostEq), hpost, decide_eq_true howned⟩
        · intro hgood
          refine ⟨mem_retained_of_good huser hv hgood, hmine.mpr ?_⟩
          unfold good at hgood
          rw [Bool.and_eq_true] at hgood
          exact of_decide_eq_true hgood.1
      by_cases hgood : good user post db v = true
      · obtain ⟨hv', hpostEq⟩ := hiff.mpr hgood
        rw [if_pos (hcond.mpr hv'), if_pos hpostEq, if_pos hgood]
      · rw [if_neg hgood]
        by_cases hv' : v ∈ req.retained cfg pkg db
        · have hpostNe : ¬ mineRow user post row = true := fun h => hgood (hiff.mp ⟨hv', h⟩)
          rw [if_pos (hcond.mpr hv'), if_neg hpostNe]
        · rw [if_neg fun h => hv' (hcond.mp h)]

/-- The user and the post of an outbox row are those of the stored row. -/
theorem mineEnvelope_of_outboxMessage {items : List ValidatedBehaviorEvent} {row : BehaviorRow}
    {u : Uuid} {m : Uuid × Envelope} (h : outboxMessage cfg u items row = some m) :
    mineEnvelope user post m.2 = decide (u = user ∧ row.postId = post) := by
  unfold outboxMessage at h
  obtain ⟨e, he, rfl⟩ := Option.map_eq_some_iff.mp h
  have hdata := telemetryData_of_telemetryEnvelope he
  unfold mineEnvelope
  rw [hdata]
  rfl

/-- The user of a new row. -/
theorem userId_of_mem_rows {row : BehaviorRow} (h : row ∈ req.rows cfg pkg db) :
    row.userId = req.userId := by
  obtain ⟨v, -, -, hrow⟩ := mem_rows.mp h
  exact (rowFor_eq_some hrow).2.2.1

/-- The outbox rows of the request about the post come from its rows about the post. -/
theorem filter_mineOutbox_outboxRows :
    (req.outboxRows cfg pkg db).filter (mineOutbox user post)
      = outboxAlone cfg req.userId (req.retained cfg pkg db)
          ((req.rows cfg pkg db).filter (mineRow user post)) := by
  unfold Request.outboxRows outboxAlone
  rw [List.filter_map, List.filter_filterMap, List.filterMap_filter]
  congr 1
  apply List.filterMap_congr
  intro row hrow
  cases hm : outboxMessage cfg req.userId (req.retained cfg pkg db) row with
  | none => simp
  | some m =>
    have hmine : mineEnvelope user post m.2 = mineRow user post row := by
      rw [mineEnvelope_of_outboxMessage hm, mineRow, userId_of_mem_rows hrow]
    rw [Option.filter_some, Function.comp_apply]
    show (if mineEnvelope user post m.2 = true then some m else none) = _
    rw [hmine]

/-- The message of a row depends on the item with its client event id only. -/
theorem outboxMessage_forget {u : Uuid} {items items' : List ValidatedBehaviorEvent}
    {v : ValidatedBehaviorEvent} {row : BehaviorRow}
    (hnodup : (items.map fun v => v.event.clientEventId).Nodup)
    (hnodup' : (items'.map fun v => v.event.clientEventId).Nodup)
    (hv : v ∈ items) (hv' : forget v ∈ items') (hrow : row.clientEventId = v.event.clientEventId) :
    outboxMessage cfg u items row = outboxMessage cfg u items' row := by
  have hitems := Lib.filter_key_of_mem hnodup hv
  have hitems' := Lib.filter_key_of_mem hnodup' hv'
  unfold outboxMessage
  rw [hrow]
  have hforget : (forget v).event = v.event := rfl
  rw [hforget] at hitems'
  rw [hitems, hitems']
  rfl

end Request

/-! ### A request, seen from the post -/

section Ingest

variable {s : State} {req : Request} (hids : req.FreshIds s.db)

/-- The records after a request that changes nothing about them. -/
theorem records_of_filter_eq {db : Database} {rows : List BehaviorRow} {outbox : List OutboxRow}
    (hrows : db.behaviorEvents = s.db.behaviorEvents ++ rows)
    (houtbox : db.outbox = insertAllNew OutboxRow.eventId s.db.outbox outbox)
    (hnoRows : rows.filter (mineRow user post) = [])
    (hnoOutbox : outbox.filter (mineOutbox user post) = []) :
    records user post { s with db := db } = records user post s := by
  have hnew : (newRows OutboxRow.eventId s.db.outbox outbox).filter (mineOutbox user post) = [] := by
    apply List.filter_eq_nil_iff.mpr
    intro row hrow
    exact List.filter_eq_nil_iff.mp hnoOutbox row (Lib.newRows_subset hrow)
  unfold records
  dsimp only
  rw [hrows, houtbox, Lib.insertAllNew_eq, List.filter_append, List.filter_append, hnoRows, hnew,
    List.append_nil, List.append_nil]

include hids in
/-- A request that stores no row about the post leaves the records as they are. -/
theorem records_ingested_of_no_rows
    (hnone : ∀ r, ingestBehaviorEvents cfg pkg s.db req = .ok r →
      (req.rows cfg pkg s.db).filter (mineRow user post) = []) :
    records user post { s with db := ingested cfg pkg s.db req } = records user post s := by
  unfold ingested
  cases hingest : ingestBehaviorEvents cfg pkg s.db req with
  | error e => rfl
  | ok r =>
    have hno := hnone r hingest
    obtain ⟨hrows, houtbox, -⟩ := database_of_ingestBehaviorEvents_eq_ok hids hingest
    refine records_of_filter_eq hrows houtbox hno ?_
    rw [filter_mineOutbox_outboxRows, hno]
    rfl

include hids in
/-- A request of somebody else, or about other posts. -/
theorem records_ingested_other
    (hother : ∀ v ∈ req.parsed cfg pkg, ¬ (req.userId = user ∧ v.event.postId = post)) :
    records user post { s with db := ingested cfg pkg s.db req } = records user post s := by
  refine records_ingested_of_no_rows hids fun r _ => List.filter_eq_nil_iff.mpr fun row hrow => ?_
  obtain ⟨v, hv, -, hfor⟩ := mem_rows.mp hrow
  obtain ⟨-, -, huser, hpost, -⟩ := rowFor_eq_some hfor
  have hparsed := distinct_subset_parsed (mem_ready_iff.mp (mem_retained.mp hv).1).1
  have hnot := hother v hparsed
  unfold mineRow
  rw [huser, hpost]
  simpa using hnot

/-- The items that are not about another post are at most all items. -/
theorem mineCount_le (req : Request) : mineCount pkg post req ≤ req.items.length :=
  List.countP_le_length

include hids in
/-- **A request of the user about the post.**  It changes the records as if the user were alone. -/
theorem records_ingested (huser : req.userId = user) (hne : mineEvents cfg pkg post req ≠ [])
    (hsep : Separate cfg pkg user post s (.ingest req)) :
    records user post { s with db := ingested cfg pkg s.db req }
      = alone cfg user s.db (records user post s)
          (.submit (mineCount pkg post req) req.dbNow (mineEvents cfg pkg post req)) := by
  obtain ⟨hbatch, hundisturbed⟩ := hsep huser
  have hitems : req.items ≠ [] := by
    intro hnil
    apply hne
    unfold mineEvents Request.parsed readItems
    rw [hnil]
    rfl
  unfold alone
  dsimp only
  split
  · next hacceptedAlone =>
    by_cases hnew : newAlone user s.db req.dbNow (mineEvents cfg pkg post req)
        (s.db.behaviorEvents.filter (mineRow user post)) = []
    · -- nothing would be stored alone, and nothing is
      have hsame : newAlone user s.db req.dbNow (mineEvents cfg pkg post req)
          (records user post s).rows = [] := hnew
      rw [hsame]
      refine (records_ingested_of_no_rows hids fun r hr => ?_).trans ?_
      · have haccepted : req.Accepted cfg pkg s.db := accepted_of_ingestBehaviorEvents_eq_ok hids hr
        rw [filter_mineRow_rows huser hbatch haccepted]
        apply List.filter_eq_nil_iff.mpr
        intro row hrow hfree
        refine List.filter_eq_nil_iff.mp hnew row hrow (decide_eq_true fun htaken => ?_)
        obtain ⟨y, hy, hkey⟩ := htaken
        exact of_decide_eq_true hfree ⟨y, (List.mem_filter.mp hy).1, hkey⟩
      · unfold records
        simp [outboxAlone, insertAllNew]
    · obtain ⟨hsize, haccepted, hstored, houtboxSep⟩ := hundisturbed hacceptedAlone hnew
      obtain ⟨r, hr⟩ := (exists_ingestBehaviorEvents_eq_ok hids ⟨hitems, hsize⟩).mpr haccepted
      obtain ⟨hrows, houtbox, -⟩ := database_of_ingestBehaviorEvents_eq_ok hids hr
      -- the rows about the post are those that are new alone
      have hmine : (req.rows cfg pkg s.db).filter (mineRow user post)
          = newAlone user s.db req.dbNow (mineEvents cfg pkg post req)
              (s.db.behaviorEvents.filter (mineRow user post)) := by
        rw [filter_mineRow_rows huser hbatch haccepted]
        apply List.filter_congr
        intro row hrow
        have htaken : Taken BehaviorRow.clientEventId s.db.behaviorEvents row.clientEventId
            ↔ Taken BehaviorRow.clientEventId (s.db.behaviorEvents.filter (mineRow user post))
                row.clientEventId := by
          constructor
          · rintro ⟨y, hy, hkey⟩
            refine ⟨y, List.mem_filter.mpr ⟨hy, ?_⟩, hkey⟩
            by_contra hnot
            obtain ⟨event, hevent, hfor⟩ := List.mem_filterMap.mp hrow
            obtain ⟨v, hv, rfl⟩ := List.mem_map.mp hevent
            exact hstored v hv y hy (by simpa using hnot)
              (hkey.trans (rowFor_eq_some hfor).2.1)
          · rintro ⟨y, hy, hkey⟩
            exact ⟨y, (List.mem_filter.mp hy).1, hkey⟩
        simp only [htaken]
      -- and so are the outbox rows
      have hmessages : (req.outboxRows cfg pkg s.db).filter (mineOutbox user post)
          = outboxAlone cfg user (keptAlone user s.db (mineEvents cfg pkg post req))
              (newAlone user s.db req.dbNow (mineEvents cfg pkg post req)
                (s.db.behaviorEvents.filter (mineRow user post))) := by
        rw [filter_mineOutbox_outboxRows, hmine, huser]
        unfold outboxAlone
        congr 1
        apply List.filterMap_congr
        intro row hrow
        obtain ⟨event, hevent, hfor⟩ := List.mem_filterMap.mp (List.mem_of_mem_filter hrow)
        obtain ⟨w, hw, rfl⟩ := List.mem_map.mp hevent
        have hnodup : ((keptAlone user s.db (mineEvents cfg pkg post req)).map fun v =>
            v.event.clientEventId).Nodup :=
          Lib.nodup_newRows.sublist (List.filter_sublist.map _)
        have hw' := hw
        rw [← map_forget_distinct hbatch] at hw'
        obtain ⟨v, hv, rfl⟩ := List.mem_map.mp hw'
        obtain ⟨hvDistinct, hgood⟩ := List.mem_filter.mp hv
        exact outboxMessage_forget (nodup_distinct.sublist (map_retained_sublist _)) hnodup
          (mem_retained_of_good huser hvDistinct hgood) hw (rowFor_eq_some hfor).2.1
      unfold ingested
      rw [hr]
      unfold records
      dsimp only
      rw [hrows, houtbox, List.filter_append, hmine, Lib.filter_insertAllNew, hmessages]
      intro x hx hxOther y hy hyMine
      have hx' : x ∈ s.db.outbox ++ req.outboxRows cfg pkg s.db := by
        rw [Lib.insertAllNew_eq] at hx
        rcases List.mem_append.mp hx with hx | hx
        · exact List.mem_append_left _ hx
        · exact List.mem_append_right _ (Lib.newRows_subset hx)
      exact houtboxSep y hy hyMine x hx' hxOther
  · next hrefused =>
    -- alone the events would be refused, and they are
    refine records_ingested_of_no_rows hids fun r hr => absurd ?_ hrefused
    have haccepted : req.Accepted cfg pkg s.db := accepted_of_ingestBehaviorEvents_eq_ok hids hr
    refine ⟨(mineCount_le req).trans (length_le_of_ingestBehaviorEvents_eq_ok hr), fun w hw => ?_⟩
    rw [← map_forget_distinct hbatch] at hw
    obtain ⟨v, hv, rfl⟩ := List.mem_map.mp hw
    obtain ⟨hvDistinct, hgood⟩ := List.mem_filter.mp hv
    have hinsertable := (haccepted v (mem_retained_of_good huser hvDistinct hgood)).1
    rwa [huser] at hinsertable

end Ingest

/-! ### Alone, only the posts and the impressions matter -/

section Alone

variable {db db' : Database} (h : SameCatalog db db')

include h

theorem keptAlone_of_sameCatalog (events : List ValidatedBehaviorEvent) :
    keptAlone user db events = keptAlone user db' events := by
  unfold keptAlone
  apply List.filter_congr
  intro v _
  have howned : Owned db user v.event ↔ Owned db' user v.event := by
    unfold Owned
    simp only [served_of_sameCatalog h]
  simp only [post_isSome_of_sameCatalog h, howned]

theorem rowsAlone_of_sameCatalog (dbNow : Instant) (events : List ValidatedBehaviorEvent) :
    rowsAlone user db dbNow events = rowsAlone user db' dbNow events := by
  unfold rowsAlone
  rw [keptAlone_of_sameCatalog h]
  apply List.filterMap_congr
  intro event _
  exact rowFor_of_sameCatalog h user dbNow event

theorem acceptedAlone_of_sameCatalog {count : Nat} {dbNow : Instant}
    {events : List ValidatedBehaviorEvent} :
    AcceptedAlone user db count dbNow events ↔ AcceptedAlone user db' count dbNow events := by
  unfold AcceptedAlone
  rw [keptAlone_of_sameCatalog h]
  simp only [insertable_of_sameCatalog h]

theorem newAlone_of_sameCatalog (dbNow : Instant) (events : List ValidatedBehaviorEvent)
    (rows : List BehaviorRow) :
    newAlone user db dbNow events rows = newAlone user db' dbNow events rows := by
  unfold newAlone
  rw [rowsAlone_of_sameCatalog h]

theorem alone_of_sameCatalog (r : Records) (x : Submission) :
    alone cfg user db r x = alone cfg user db' r x := by
  cases x with
  | submit count dbNow events =>
    unfold alone
    simp only [acceptedAlone_of_sameCatalog h, newAlone_of_sameCatalog h,
      keptAlone_of_sameCatalog h]
  | dispatch row => rfl
  | clean row => rfl
  | flush envelopes => rfl

end Alone

/-! ### Every action, seen from the post -/

section Step

variable {s t : State}

/-- Sending a row. -/
theorem records_dispatch (row : OutboxRow) :
    records user post { s with sent := s.sent ++ [row.payload] }
      = if mineOutbox user post row then
          { records user post s with sent := (records user post s).sent ++ [row.payload] }
        else records user post s := by
  unfold records mineOutbox
  dsimp only
  rw [List.filter_append]
  split
  · next hmine => rw [List.filter_cons_of_pos hmine, List.filter_nil]
  · next hmine => rw [List.filter_cons_of_neg hmine, List.filter_nil, List.append_nil]

/-- Deleting a row. -/
theorem records_clean (row : OutboxRow) :
    records user post
        { s with db := { s.db with outbox := s.db.outbox.filter fun r => r ≠ row } }
      = if mineOutbox user post row then
          { records user post s with
            outbox := (records user post s).outbox.filter fun r => r ≠ row }
        else records user post s := by
  unfold records
  dsimp only
  rw [List.filter_filter]
  split
  · next hmine =>
    rw [List.filter_filter]
    congr 1
    apply List.filter_congr
    intro r _
    exact Bool.and_comm _ _
  · next hmine =>
    congr 1
    apply List.filter_congr
    intro r _
    -- the row that is deleted is not about the post
    by_cases hr : r = row
    · subst hr
      simp [hmine]
    · simp [hr]

/-- Claiming receipts. -/
theorem records_flush {u : Uuid} {envelopes : List Envelope}
    (huser : ∀ e ∈ envelopes, userOf e = u)
    (hsep : Separate cfg pkg user post s (.flush u envelopes)) :
    records user post { s with
        receipts := insertAllNew Receipt.eventId s.receipts (envelopes.map (receiptOf u)) }
      = { records user post s with
          receipts := insertAllNew Receipt.eventId (records user post s).receipts
            ((envelopes.filter (mineEnvelope user post)).map (receiptOf user)) } := by
  have hmap : (envelopes.map (receiptOf u)).filter (mineReceipt user post)
      = (envelopes.filter (mineEnvelope user post)).map (receiptOf user) := by
    rw [List.filter_map]
    apply List.map_congr_left
    intro e he
    obtain ⟨hmem, hmine⟩ := List.mem_filter.mp he
    have hu : user = u := by
      have hmine' : mineEnvelope user post e = true := hmine
      unfold mineEnvelope at hmine'
      exact (of_decide_eq_true hmine').1.symm.trans (huser e hmem)
    rw [hu]
  unfold records
  dsimp only
  rw [Lib.filter_insertAllNew, hmap]
  intro x hx hother y hy hmine
  obtain ⟨e, he, rfl⟩ := List.mem_map.mp hy
  refine hsep e he hmine x ?_ hother
  rw [Lib.insertAllNew_eq] at hx
  rcases List.mem_append.mp hx with hx | hx
  · exact List.mem_append_left _ hx
  · exact List.mem_append_right _ (Lib.newRows_subset hx)

/-- An action leaves the posts and the impressions as they are. -/
theorem sameCatalog_step {a : Action} (h : step cfg pkg s a = some t) :
    SameCatalog t.db s.db := by
  have hrefl : SameCatalog s.db s.db := ⟨rfl, fun _ => rfl⟩
  cases a with
  | ingest req =>
    obtain ⟨hdrawn, rfl⟩ := step_ingest.mp h
    show SameCatalog (ingested cfg pkg s.db req) s.db
    unfold ingested
    cases hingest : ingestBehaviorEvents cfg pkg s.db req with
    | error e => exact hrefl
    | ok r => exact (database_of_ingestBehaviorEvents_eq_ok hdrawn.1 hingest).2.2
  | dispatch row =>
    obtain ⟨-, rfl⟩ := step_dispatch.mp h
    exact hrefl
  | clean row =>
    obtain ⟨-, rfl⟩ := step_clean.mp h
    exact ⟨rfl, fun _ => rfl⟩
  | flush u envelopes =>
    obtain ⟨-, rfl⟩ := step_flush.mp h
    exact hrefl

/-- **One action.**  When nothing gets in the way, it changes the records as if the user and the
    post were alone. -/
theorem records_step {a : Action} (hsep : Separate cfg pkg user post s a)
    (h : step cfg pkg s a = some t) :
    records user post t = match view cfg pkg user post a with
      | none => records user post s
      | some x => alone cfg user s.db (records user post s) x := by
  cases a with
  | ingest req =>
    obtain ⟨hdrawn, rfl⟩ := step_ingest.mp h
    simp only [view]
    by_cases hmine : req.userId = user ∧ mineEvents cfg pkg post req ≠ []
    · simp only [if_pos hmine]
      exact records_ingested hdrawn.1 hmine.1 hmine.2 hsep
    · simp only [if_neg hmine]
      refine records_ingested_other hdrawn.1 fun v hv hown => hmine ⟨hown.1, ?_⟩
      -- the event is among those about the post
      exact List.ne_nil_of_mem (List.mem_map_of_mem
        (List.mem_filter.mpr ⟨hv, decide_eq_true hown.2⟩))
  | dispatch row =>
    obtain ⟨-, rfl⟩ := step_dispatch.mp h
    rw [records_dispatch]
    simp only [view]
    split_ifs <;> rfl
  | clean row =>
    obtain ⟨-, rfl⟩ := step_clean.mp h
    rw [records_clean]
    simp only [view]
    split_ifs <;> rfl
  | flush u envelopes =>
    obtain ⟨hsent, rfl⟩ := step_flush.mp h
    rw [records_flush (fun e he => (hsent e he).2) hsep]
    simp only [view]
    split_ifs with hsome
    · rfl
    · rw [not_not.mp hsome]
      rfl

/-- **A run.**  The records at its end are those of the same submissions alone. -/
theorem records_run {db : Database} {as : List Action} (hcatalog : SameCatalog s.db db)
    (hsep : Lib.Along (step cfg pkg) (Separate cfg pkg user post) s as)
    (h : Lib.run (step cfg pkg) s as = some t) :
    records user post t
      = (as.filterMap (view cfg pkg user post)).foldl (alone cfg user db) (records user post s) := by
  induction as generalizing s with
  | nil =>
    rw [Lib.run_nil, Option.some.injEq] at h
    rw [← h]
    rfl
  | cons a as ih =>
    obtain ⟨u, hu, hrest⟩ := Lib.run_cons_eq_some.mp h
    obtain ⟨hguard, hsep'⟩ := (Lib.along_cons _ s a as).mp hsep
    have hsame := sameCatalog_step hu
    have hcatalog' : SameCatalog u.db db :=
      ⟨hsame.impressions.trans hcatalog.impressions,
        fun id => (hsame.topicSnapshot id).trans (hcatalog.topicSnapshot id)⟩
    have hstep := records_step hguard hu
    rw [ih hcatalog' (hsep' u hu) hrest, hstep]
    cases hview : view cfg pkg user post a with
    | none => rw [List.filterMap_cons_none hview]
    | some x =>
      rw [List.filterMap_cons_some hview, List.foldl_cons]
      show List.foldl _ (alone cfg user s.db (records user post s) x) _ = _
      rw [alone_of_sameCatalog hcatalog]

end Step

/-! ### The contributions -/

/-- The ids are UUIDs, and the primary keys and the foreign keys hold. -/
structure Keys (db : Database) : Prop where
  posts : ∀ id, (db.post id).isSome → id < 2 ^ 128
  impressions : ∀ i ∈ db.impressions, i.id < 2 ^ 128
  impressionKey : (db.impressions.map Impression.id).Nodup
  rowKey : (db.behaviorEvents.map BehaviorRow.id).Nodup
  rows : ∀ row ∈ db.behaviorEvents,
    row.id < 2 ^ 128 ∧ (db.post row.postId).isSome ∧ row.impressionServed db

section Contributions

variable {s t : State}

/-- The keys hold on after new rows that satisfy them. -/
theorem keys_append {db db' : Database} {rows : List BehaviorRow} (hkeys : Keys db)
    (hcatalog : SameCatalog db' db) (hrows : db'.behaviorEvents = db.behaviorEvents ++ rows)
    (hnodup : ((db.behaviorEvents ++ rows).map BehaviorRow.id).Nodup)
    (hnew : ∀ row ∈ rows,
      row.id < 2 ^ 128 ∧ (db.post row.postId).isSome ∧ row.impressionServed db) : Keys db' := by
  have hserved : ∀ row : BehaviorRow, row.impressionServed db' ↔ row.impressionServed db := by
    intro row
    unfold BehaviorRow.impressionServed
    simp only [served_of_sameCatalog hcatalog]
  refine ⟨fun id hid => hkeys.posts id ?_, hcatalog.impressions ▸ hkeys.impressions,
    hcatalog.impressions ▸ hkeys.impressionKey, hrows ▸ hnodup, fun row hrow => ?_⟩
  · rwa [post_isSome_of_sameCatalog hcatalog] at hid
  · rw [hserved, post_isSome_of_sameCatalog hcatalog]
    rw [hrows, List.mem_append] at hrow
    exact hrow.elim (hkeys.rows row) (hnew row)

/-- The keys hold on. -/
theorem keys_step {a : Action} (hkeys : Keys s.db) (h : step cfg pkg s a = some t) :
    Keys t.db := by
  have hcatalog := sameCatalog_step h
  cases a with
  | ingest req =>
    obtain ⟨⟨hids, hdrawn⟩, rfl⟩ := step_ingest.mp h
    show Keys (ingested cfg pkg s.db req)
    unfold ingested
    cases hingest : ingestBehaviorEvents cfg pkg s.db req with
    | error e => exact hkeys
    | ok r =>
      obtain ⟨hrows, -, hsame⟩ := database_of_ingestBehaviorEvents_eq_ok hids hingest
      have haccepted : req.Accepted cfg pkg s.db := accepted_of_ingestBehaviorEvents_eq_ok hids hingest
      -- the ids of the new rows are among those that were drawn
      have hsublist : ((req.rows cfg pkg s.db).map BehaviorRow.id).Sublist
          (req.items.map Item.id) := by
        unfold Request.rows freshRows
        refine ((List.filter_sublist).map _).trans
          ((sublist_map_rowFor fun _ _ h => (rowFor_eq_some h).1).trans ?_)
        rw [List.map_map]
        exact (map_retained_sublist _).trans map_id_distinct_sublist
      refine keys_append hkeys hsame hrows ?_ fun row hrow => ?_
      · rw [List.map_append]
        exact hids.sublist (List.Sublist.append (List.Sublist.refl _) hsublist)
      · obtain ⟨v, hv, hfree, hfor⟩ := mem_rows.mp hrow
        obtain ⟨item, hitem, hid⟩ := List.mem_map.mp
          (hsublist.subset (List.mem_map_of_mem hrow))
        refine ⟨hid ▸ hdrawn item hitem, ?_, ?_⟩
        · obtain ⟨-, -, -, hpostId, -, hpost⟩ := rowFor_eq_some hfor
          rwa [hpostId]
        · exact (impressionServed_rowFor hfor).mpr ((haccepted v hv).2 hfree)
  | dispatch row =>
    obtain ⟨-, rfl⟩ := step_dispatch.mp h
    exact hkeys
  | clean row =>
    obtain ⟨-, rfl⟩ := step_clean.mp h
    exact ⟨hkeys.posts, hkeys.impressions, hkeys.impressionKey, hkeys.rowKey, hkeys.rows⟩
  | flush u envelopes =>
    obtain ⟨-, rfl⟩ := step_flush.mp h
    exact hkeys

theorem postId_preferenceEvent (row : BehaviorRow) :
    (Preference.preferenceEvent (canonicalRow row)).postId = Python.uuidText row.postId := rfl

/-- **What the replay makes of the post** depends on the recorded rows only. -/
theorem contributionsOf_eq {qualifiedReadMs : Int} {now : Instant} (hkeys : Keys s.db)
    (hpost : post < 2 ^ 128) :
    contributionsOf qualifiedReadMs now s user post
      = Preference.contributions (Preference.replay (Preference.canonicalPreferenceEvents
          ((records user post s).rows.map canonicalRow)) none now qualifiedReadMs) := by
  have htext : ∀ row ∈ s.db.behaviorEvents,
      (Python.uuidText row.postId = Python.uuidText post ↔ row.postId = post) := by
    intro row hrow
    refine ⟨fun heq => ?_, fun heq => by rw [heq]⟩
    exact Python.uuidText_injective (hkeys.posts _ (hkeys.rows row hrow).2.1) hpost heq
  have hevents : (eventsOf s user).filter
        (fun event => decide (event.postId = Python.uuidText post))
      = Preference.canonicalPreferenceEvents ((records user post s).rows.map canonicalRow) := by
    unfold eventsOf Preference.canonicalPreferenceEvents records
    dsimp only
    rw [List.map_map, List.map_map, List.filter_map, List.filter_filter]
    refine congrArg (List.map _) (List.filter_congr fun row hrow => ?_)
    unfold mineRow
    rw [Bool.eq_iff_iff]
    simp only [Function.comp_apply, Bool.and_eq_true, decide_eq_true_eq, postId_preferenceEvent,
      htext row hrow]
    exact And.comm
  have hids : ((eventsOf s user).map Preference.PreferenceEvent.eventId).Nodup := by
    unfold eventsOf Preference.canonicalPreferenceEvents
    rw [List.map_map, List.map_map]
    have hnodup : ((s.db.behaviorEvents.filter fun row => row.userId = user).map
        BehaviorRow.id).Nodup := hkeys.rowKey.sublist (List.filter_sublist.map _)
    rw [List.nodup_iff_pairwise_ne, List.pairwise_map] at hnodup ⊢
    refine hnodup.imp_of_mem fun {a b} ha hb hne heq => hne ?_
    exact Python.uuidText_injective (hkeys.rows a (List.mem_of_mem_filter ha)).1
      (hkeys.rows b (List.mem_of_mem_filter hb)).1 heq
  -- an impression of the user is one of the post exactly when its row is about the post
  have hown : ∀ event ∈ eventsOf s user, Preference.OwnImpression
      (fun text => ∃ i ∈ s.db.impressions,
        i.userId = user ∧ i.postId = post ∧ Python.uuidText i.id = text)
      (Python.uuidText post) event := by
    intro event hevent impressionId himpression
    unfold eventsOf Preference.canonicalPreferenceEvents at hevent
    rw [List.map_map] at hevent
    obtain ⟨row, hrow, rfl⟩ := List.mem_map.mp hevent
    obtain ⟨hmem, huser⟩ := List.mem_filter.mp hrow
    have huser' : row.userId = user := of_decide_eq_true huser
    have htextId : row.impressionId.map Python.uuidText = some impressionId :=
      (Option.filter_eq_some_iff.mp himpression).1
    obtain ⟨id, hid, rfl⟩ := Option.map_eq_some_iff.mp htextId
    have hserved : Served s.db row.userId id row.postId := (hkeys.rows row hmem).2.2 id hid
    unfold Served at hserved
    show _ ↔ Python.uuidText row.postId = Python.uuidText post
    rw [htext row hmem]
    constructor
    · rintro ⟨i, hi, -, hpostId, heq⟩
      have hidEq : i.id = id := Python.uuidText_injective (hkeys.impressions i hi)
        (hkeys.impressions _ hserved) heq
      have hsame := List.inj_on_of_nodup_map hkeys.impressionKey hi hserved hidEq
      rw [← hpostId, hsame]
    · intro hpostId
      exact ⟨_, hserved, huser', hpostId, rfl⟩
  unfold contributionsOf
  rw [Preference.contributions_of_post hids hown, hevents]

end Contributions

/-- **Noninterference.**  Two runs in which the same is submitted for a user and a post, and in
    which nothing gets in the way of it, record the same for the user and the post, and the
    preference replay makes the same contributions of it. -/
theorem noninterference (cfg : Config) (pkg : Packages) (user post : Uuid) (hpost : post < 2 ^ 128)
    {s t t' : State} {as as' : List Action} (hkeys : Keys s.db)
    (hview : as.filterMap (view cfg pkg user post) = as'.filterMap (view cfg pkg user post))
    (hsep : Lib.Along (step cfg pkg) (Separate cfg pkg user post) s as)
    (hsep' : Lib.Along (step cfg pkg) (Separate cfg pkg user post) s as')
    (hrun : Lib.run (step cfg pkg) s as = some t) (hrun' : Lib.run (step cfg pkg) s as' = some t') :
    records user post t = records user post t'
      ∧ ∀ qualifiedReadMs now, contributionsOf qualifiedReadMs now t user post
          = contributionsOf qualifiedReadMs now t' user post := by
  have hcatalog : SameCatalog s.db s.db := ⟨rfl, fun _ => rfl⟩
  have hrecords : records user post t = records user post t' := by
    rw [records_run hcatalog hsep hrun, records_run hcatalog hsep' hrun', hview]
  have hkeysEnd : ∀ {u : State} {bs : List Action}, Lib.run (step cfg pkg) s bs = some u →
      Keys u.db := fun hbs =>
    Lib.run_invariant (P := fun u => Keys u.db) (fun _ _ _ hk h => keys_step hk h) hkeys hbs
  refine ⟨hrecords, fun qualifiedReadMs now => ?_⟩
  rw [contributionsOf_eq (hkeysEnd hrun) hpost, contributionsOf_eq (hkeysEnd hrun') hpost, hrecords]

end Noninterference

/-- A qualified view in a visit. -/
private def reading (clientEventId visitId id : Uuid) : Item where
  value := .obj [("client_event_id", uuidText clientEventId), ("post_id", uuidText 1),
    ("event_type", .str "view"), ("event_version", .str "v2"), ("dwell_ms", .int 12000),
    ("metadata", .obj [("continuous_visible_ms", .int 12000), ("trigger", .str "detail"),
      ("visit_id", uuidText visitId)]),
    ("occurred_at", .str "1970-01-01T00:00:00Z")]
  id := id

/-- A user submits the view. -/
private def submits (user : Uuid) (item : Item) : Action :=
  .ingest ⟨user, 0, 0, [item]⟩

/-- One post, and nothing else. -/
private def onePost : State := ⟨⟨[⟨1, [], [], 0⟩], [], [], []⟩, [], []⟩

private def configured : Config := ⟨10000, "v2", false⟩

/-- The user 7 reads in the visit 4, alone or after the user 6 has read in some visit. -/
private def reads : List Action := [submits 7 (reading 3 4 101)]

private def readsAfter (visitId : Uuid) : List Action :=
  submits 6 (reading 2 visitId 100) :: reads

private theorem keys_onePost : Keys onePost.db where
  posts id hid := by
    obtain ⟨p, hp⟩ := Option.isSome_iff_exists.mp hid
    have hmem := List.mem_of_find?_eq_some hp
    have hid' : p.id = id := by simpa using List.find?_some hp
    have hone : p = ⟨1, [], [], 0⟩ := List.mem_singleton.mp hmem
    rw [← hid', hone]
    decide
  impressions := by decide
  impressionKey := by decide
  rowKey := by decide
  rows _ h := by contradiction

private theorem isSome_reads :
    (Lib.run (step configured smallPackages) onePost reads).isSome = true := by
  decide +kernel

private theorem isSome_readsAfter (visitId : Uuid) (h : visitId = 4 ∨ visitId = 5) :
    (Lib.run (step configured smallPackages) onePost (readsAfter visitId)).isSome = true := by
  rcases h with rfl | rfl <;> decide +kernel

/-- The user 7 submits the same in both runs. -/
private theorem view_readsAfter (visitId : Uuid) :
    (readsAfter visitId).filterMap (view configured smallPackages 7 1)
      = reads.filterMap (view configured smallPackages 7 1) := by
  have hother : view configured smallPackages 7 1 (submits 6 (reading 2 visitId 100)) = none := by
    simp [view, submits]
  exact List.filterMap_cons_none hother

/-- Two users read in different visits. -/
theorem noninterference_of_visits :
    ∃ t t', Lib.run (step configured smallPackages) onePost (readsAfter 5) = some t
      ∧ Lib.run (step configured smallPackages) onePost reads = some t'
      ∧ records 7 1 t = records 7 1 t'
      ∧ ∀ qualifiedReadMs now, contributionsOf qualifiedReadMs now t 7 1
          = contributionsOf qualifiedReadMs now t' 7 1 := by
  obtain ⟨t, ht⟩ := Option.isSome_iff_exists.mp (isSome_readsAfter 5 (.inr rfl))
  obtain ⟨t', ht'⟩ := Option.isSome_iff_exists.mp isSome_reads
  exact ⟨t, t', ht, ht', noninterference configured smallPackages 7 1 (by decide) keys_onePost
    (view_readsAfter 5)
    (by decide +kernel) (by decide +kernel) ht ht'⟩

/-- **Counterexample.**  The user 6 reads in the visit that the user 7 names: the qualified read
    of the user 7 has no outbox row, although it has one when the user 6 is not there. -/
theorem suppressed_by_visit_id :
    ∃ t t', Lib.run (step configured smallPackages) onePost (readsAfter 4) = some t
      ∧ Lib.run (step configured smallPackages) onePost reads = some t'
      ∧ (readsAfter 4).filterMap (view configured smallPackages 7 1)
        = reads.filterMap (view configured smallPackages 7 1)
      ∧ (records 7 1 t').outbox.length = 1 ∧ (records 7 1 t).outbox = [] := by
  refine ⟨_, _, (Option.some_get (isSome_readsAfter 4 (.inl rfl))).symm,
    (Option.some_get isSome_reads).symm, view_readsAfter 4, ?_, ?_⟩
  · decide +kernel
  · decide +kernel

end Oecophylla.Telemetry
