import Oecophylla.Frontend.Acceptable

namespace Oecophylla.Frontend.Batches

open Acceptable
open Telemetry (BehaviorEvent Client ClientOptions EventType Flight Answer MetaValue)

/-!
# What a page sends

The trackers of a page call one telemetry client, and so does a click.

* `Holds` — a property of the events that a client holds or has sent;
* `Allowed` — the calls that the trackers make;
* `Page` — a client and its trackers, and what happens to them;
* `batches_accepted` — every event in every batch passes `validate_behavior_event`.
-/

variable {K : Type*}

/-! ### What a client holds -/

/-- A property of every event that is queued, that a flush captured, or that was sent. -/
structure Holds (P : BehaviorEvent K → Prop) (c : Client K) : Prop where
  queued : ∀ event ∈ c.queue, P event
  captured : ∀ flight ∈ c.flights, ∀ event ∈ flight.batch, P event
  sent : ∀ request ∈ c.requests, ∀ event ∈ request.batch, P event

section Holds

variable {P : BehaviorEvent K → Prop} {c : Client K}

theorem Holds.scheduleFlush (h : Holds P c) : Holds P c.scheduleFlush := by
  obtain ⟨hqueue, hflights, -, hrequests, -⟩ := Client.scheduleFlush_same (c := c)
  refine ⟨?_, ?_, ?_⟩
  · rw [hqueue]
    exact h.queued
  · rw [hflights]
    exact h.captured
  · rw [hrequests]
    exact h.sent

theorem Holds.sendBatch {batch : List (BehaviorEvent K)} (h : Holds P c)
    (hbatch : ∀ event ∈ batch, P event) : Holds P (c.sendBatch batch) := by
  refine ⟨h.queued, h.captured, fun request hrequest => ?_⟩
  rcases List.mem_append.mp hrequest with hold | hnew
  · exact h.sent request hold
  · rw [List.mem_singleton.mp hnew]
    exact hbatch

/-- A flush captures what is queued. -/
theorem Holds.flush (h : Holds P c) : Holds P c.flush := by
  have hbatch : ∀ event ∈ c.queue.take Telemetry.maxBatchSize, P event :=
    fun event hevent => h.queued event (List.mem_of_mem_take hevent)
  have hcleared : Holds P c.clearFlushTimer := ⟨h.queued, h.captured, h.sent⟩
  unfold Client.flush
  split
  · exact h
  · dsimp only
    split
    · exact hcleared
    · split
      · exact hcleared
      · refine Holds.sendBatch ⟨h.queued, fun flight hflight => ?_, h.sent⟩ hbatch
        rcases List.mem_append.mp hflight with hold | hnew
        · exact h.captured flight hold
        · rw [List.mem_singleton.mp hnew]
          exact hbatch

theorem Holds.settle (flight : Flight K) (h : Holds P c) : Holds P (c.settle flight) :=
  ⟨h.queued, fun flight hflight => h.captured flight (List.mem_of_mem_filter hflight), h.sent⟩

theorem Holds.await (flight : Flight K) (awaiting : Telemetry.Awaiting) (h : Holds P c) :
    Holds P (c.await flight awaiting) := by
  refine ⟨h.queued, fun flight' hflight' => ?_, h.sent⟩
  obtain ⟨captured, hcaptured, rfl⟩ := List.mem_map.mp hflight'
  split
  · exact h.captured captured hcaptured
  · exact h.captured captured hcaptured

theorem Holds.takeStatus (batch : List (BehaviorEvent K)) (status : Nat) (h : Holds P c) :
    Holds P (c.takeStatus batch status) := by
  unfold Client.takeStatus
  split
  · exact h.scheduleFlush
  · have hkept : Holds P
        { c with queue := c.queue.filter fun event => event.clientEventId ∉ batch.map (·.clientEventId) } :=
      ⟨fun event hevent => h.queued event (List.mem_of_mem_filter hevent), h.captured, h.sent⟩
    dsimp only
    split
    · exact hkept
    · exact hkept.scheduleFlush

/-- An answer sends the batch that its flush captured, once more, or nothing. -/
theorem Holds.resume {flight : Flight K} {answer : Answer} {t : Client K} (h : Holds P c)
    (hflight : flight ∈ c.flights) (ht : c.resume flight answer = some t) : Holds P t := by
  rcases Client.resume_cases ht with ⟨awaiting, rfl⟩ | rfl | rfl | ⟨status, rfl, -⟩
  · exact h.await flight awaiting
  · exact (h.await flight .secondResponse).sendBatch (h.captured flight hflight)
  · exact (h.settle flight).scheduleFlush
  · exact (h.settle flight).takeStatus flight.batch status

end Holds

variable [Field K] [LinearOrder K] [FloorRing K]

/-- Only a call of the recorder brings a client a new event. -/
theorem Holds.step {P : BehaviorEvent K → Prop} {opts : ClientOptions} {randomUUID : Nat → String}
    {c t : Client K} {a : Telemetry.Action K} (h : Holds P c)
    (hrecord : ∀ call now, a = .record call now → Holds P (c.record opts randomUUID now call))
    (ht : c.step opts randomUUID a = some t) : Holds P t := by
  cases a with
  | record call now =>
    rw [← Option.some.inj ht]
    exact hrecord call now rfl
  | timer handle =>
    unfold Client.step at ht
    dsimp only at ht
    split at ht
    · rw [← Option.some.inj ht]
      exact Holds.flush ⟨h.queued, h.captured, h.sent⟩
    · cases ht
  | answer id answer =>
    unfold Client.step at ht
    dsimp only at ht
    split at ht
    · cases ht
    · next flight hfind => exact h.resume (List.mem_of_find?_eq_some hfind) ht
  | discardPending =>
    rw [← Option.some.inj ht]
    exact ⟨nofun, h.captured, h.sent⟩

/-! ### The calls of the trackers -/

section Calls

variable (parseUuid : String → Option Ingestion.Uuid) (qualifiedReadMs : Int)

/-- The ids of a context are UUIDs. -/
structure ContextOk (context : RecommendationContext) : Prop where
  postId : (parseUuid context.postId).isSome
  impressionId : ∀ text ∈ context.impressionId, (parseUuid text).isSome

/-- A call with UUIDs, where a view in the feed has reached the threshold. -/
def Allowed : Call K → Prop
  | .visible context _ => ContextOk parseUuid context
  | .view context trigger continuousVisibleMs visitId => ContextOk parseUuid context
    ∧ (trigger = .feed → qualifiedReadMs ≤ clampMilliseconds continuousVisibleMs)
    ∧ VisitOk parseUuid visitId
  | .click context => ContextOk parseUuid context
  | .dwell context _ _ visitId => ContextOk parseUuid context ∧ VisitOk parseUuid visitId
  | .flush => True

/-- A client with version `v2` and ids that are UUIDs. -/
structure ClientOk (opts : ClientOptions) (randomUUID : Nat → String) : Prop where
  version : opts.labelVersion = .v2
  sessionId : (parseUuid opts.sessionId).isSome
  drawn : ∀ n, (parseUuid (randomUUID n)).isSome

end Calls

section Client

variable {parseUuid : String → Option Ingestion.Uuid} {qualifiedReadMs : Int} {opts : ClientOptions}
  {randomUUID : Nat → String} {c : Client K}

omit [FloorRing K] in
/-- What a client enqueues can be sent. -/
theorem sendable_enqueue (hclient : ClientOk parseUuid opts randomUUID) {now : Int}
    {context : RecommendationContext} {eventType : EventType} {dwellMs : Option Int}
    {metadata : List (String × MetaValue K)} (hcontext : ContextOk parseUuid context)
    (hshape : Shaped parseUuid qualifiedReadMs eventType dwellMs metadata)
    (h : Holds (Sendable parseUuid qualifiedReadMs) c) :
    Holds (Sendable parseUuid qualifiedReadMs)
      (c.enqueue opts randomUUID now context eventType dwellMs metadata) := by
  unfold Client.enqueue
  split
  · exact h
  · refine Holds.scheduleFlush ⟨fun event hevent => ?_, h.captured, h.sent⟩
    rcases List.mem_append.mp hevent with hold | hnew
    · exact h.queued event hold
    · rw [List.mem_singleton.mp hnew]
      exact ⟨hclient.drawn _, hcontext.postId, hcontext.impressionId, hclient.sessionId, hclient.version,
        hshape⟩

/-- **A call that is allowed** brings an event that can be sent. -/
theorem sendable_record [IsStrictOrderedRing K] (hclient : ClientOk parseUuid opts randomUUID) {now : Int}
    {call : Call K} (hcall : Allowed parseUuid qualifiedReadMs call)
    (h : Holds (Sendable parseUuid qualifiedReadMs) c) :
    Holds (Sendable parseUuid qualifiedReadMs) (c.record opts randomUUID now call) := by
  cases call with
  | visible context viewportRatio =>
    show Holds _ (c.visible opts randomUUID now context viewportRatio)
    unfold Client.visible
    dsimp only
    split
    · exact h
    · -- the ratio is clamped into the range of the server
      have hlow : (1 / 2 : K) ≤ min 1 (max (1 / 2) viewportRatio) :=
        le_min (by norm_num) (le_max_left _ _)
      exact sendable_enqueue hclient hcall (.visible _ hlow (min_le_left _ _)) ⟨h.queued, h.captured, h.sent⟩
  | view context trigger continuousVisibleMs visitId =>
    obtain ⟨hcontext, hlong, hvisit⟩ := hcall
    show Holds _ (c.view opts randomUUID now context trigger continuousVisibleMs visitId)
    unfold Client.view
    dsimp only
    split
    · exact h
    · have hshape : Shaped (K := K) parseUuid qualifiedReadMs .view
          (some (clampMilliseconds continuousVisibleMs)) _ :=
        .view trigger _ visitId (clampMilliseconds_nonneg _) (clampMilliseconds_le _) hlong hvisit
      exact sendable_enqueue hclient hcontext hshape ⟨h.queued, h.captured, h.sent⟩
  | click context =>
    show Holds _ (c.click opts randomUUID now context)
    unfold Client.click
    split
    · exact h
    · exact sendable_enqueue hclient hcall .click h
  | dwell context dwellMs trigger visitId =>
    obtain ⟨hcontext, hvisit⟩ := hcall
    have hshape : Shaped (K := K) parseUuid qualifiedReadMs .dwell (some (clampMilliseconds dwellMs)) _ :=
      .dwell trigger _ visitId (clampMilliseconds_nonneg dwellMs) (clampMilliseconds_le _) hvisit
    exact sendable_enqueue hclient hcontext hshape h
  | flush => exact h.flush

end Client

/-! ### The calls of a tracker on an event -/

/-- Some calls came to those before, each with a property. -/
def Adds (P : Call K → Prop) (before after : List (Call K)) : Prop :=
  ∃ new, after = before ++ new ∧ ∀ call ∈ new, P call

section Adds

variable {P : Call K → Prop} {before after : List (Call K)}

omit [Field K] [LinearOrder K] [FloorRing K] in
theorem Adds.refl (calls : List (Call K)) : Adds P calls calls := ⟨[], (List.append_nil _).symm, nofun⟩

omit [Field K] [LinearOrder K] [FloorRing K] in
theorem Adds.call {call : Call K} (h : Adds P before after) (hcall : P call) :
    Adds P before (after ++ [call]) := by
  obtain ⟨new, rfl, hnew⟩ := h
  refine ⟨new ++ [call], List.append_assoc _ _ _, fun other hother => ?_⟩
  rcases List.mem_append.mp hother with hold | hlast
  · exact hnew other hold
  · rw [List.mem_singleton.mp hlast]
    exact hcall

omit [Field K] [LinearOrder K] [FloorRing K] in
/-- The new calls alone. -/
theorem Adds.drop (h : Adds P before after) : ∀ call ∈ after.drop before.length, P call := by
  obtain ⟨new, rfl, hnew⟩ := h
  rw [List.drop_left]
  exact hnew

end Adds

section Trackers

variable {parseUuid : String → Option Ingestion.Uuid} {qualifiedReadMs : Int}

/-- The post in the feed has UUIDs for ids, and the tracker the threshold of the server. -/
structure FeedOk (parseUuid : String → Option Ingestion.Uuid) (qualifiedReadMs : Int)
    (opts : ViewTracker.Options K) : Prop where
  context : ContextOk parseUuid opts.context
  threshold : qualifiedReadMs ≤ clampMilliseconds opts.qualifiedReadMs

namespace FeedOk

open ViewTracker (Tracking)

variable {opts : ViewTracker.Options K} {now : K} {s : Tracking K} {trigger : DwellTrigger}

theorem adds_finishVisibleSegment (h : FeedOk parseUuid qualifiedReadMs opts) :
    Adds (Allowed parseUuid qualifiedReadMs) s.calls (s.finishVisibleSegment opts now trigger).calls := by
  unfold Tracking.finishVisibleSegment
  split
  · exact .refl _
  · dsimp only
    split
    · exact (Adds.refl _).call ⟨h.context, nofun⟩
    · exact .refl _

omit [Field K] [LinearOrder K] [FloorRing K] in
theorem calls_startVisibleSegment : (s.startVisibleSegment now).calls = s.calls := by
  unfold Tracking.startVisibleSegment
  split
  · rfl
  · dsimp only
    split
    · split
      · rfl
      · rfl
    · split
      · rfl
      · rfl

/-- What one event may call. -/
theorem adds_step (h : FeedOk parseUuid qualifiedReadMs opts) (s : Tracking K)
    (e : K × ViewTracker.Event K) :
    Adds (Allowed parseUuid qualifiedReadMs) s.calls (ViewTracker.step opts s e).calls := by
  obtain ⟨now, e⟩ := e
  cases e with
  | intersect entries =>
    show Adds _ s.calls (if s.connected then s.handleIntersection opts now entries else s).calls
    split
    · unfold Tracking.handleIntersection
      split
      · rw [calls_startVisibleSegment]
        exact .refl _
      · exact h.adds_finishVisibleSegment (s := { s with intersectsAtThreshold := false })
    · exact .refl _
  | visibilitychange visible =>
    show Adds _ s.calls (if s.connected then ({ s with documentVisible := visible } :
      Tracking K).handleVisibilityChange opts now else { s with documentVisible := visible }).calls
    split
    · unfold Tracking.handleVisibilityChange
      split
      · rw [calls_startVisibleSegment]
        exact .refl _
      · exact (h.adds_finishVisibleSegment (s := { s with documentVisible := visible })).call trivial
    · exact .refl _
  | visibleTimer handle =>
    show Adds _ s.calls (if handle ∈ s.visibleTimers.pending then ({ s with
      visibleTimers := s.visibleTimers.fire handle } : Tracking K).handleVisibleTimer opts now else s).calls
    split
    · unfold Tracking.handleVisibleTimer
      split
      · exact h.adds_finishVisibleSegment (s := { s with visibleTimers := s.visibleTimers.fire handle })
      · split
        · exact .refl _
        · exact (Adds.refl _).call h.context
    · exact .refl _
  | viewTimer handle =>
    show Adds _ s.calls (if handle ∈ s.viewTimers.pending then ({ s with
      viewTimers := s.viewTimers.fire handle } : Tracking K).handleViewTimer opts now else s).calls
    split
    · unfold Tracking.handleViewTimer
      split
      · exact h.adds_finishVisibleSegment (s := { s with viewTimers := s.viewTimers.fire handle })
      · split
        · exact .refl _
        · exact (Adds.refl _).call ⟨h.context, fun _ => h.threshold, nofun⟩
    · exact .refl _
  | destroy => exact h.adds_finishVisibleSegment.call trivial

end FeedOk

/-- The post that is read and the visit have UUIDs for ids. -/
structure DetailOk (parseUuid : String → Option Ingestion.Uuid) (opts : DetailRead.Options K) : Prop where
  context : ContextOk parseUuid opts.context
  visitId : VisitOk parseUuid opts.visitId

namespace DetailOk

open DetailRead (Tracking)

variable [Arithmetic K] {opts : DetailRead.Options K} {now : K} {s : Tracking K}
  {trigger : DwellTrigger} {before : List (Call K)}

theorem adds_sendQualifiedView (h : DetailOk parseUuid opts)
    (hadds : Adds (Allowed parseUuid qualifiedReadMs) before s.calls) :
    Adds (Allowed parseUuid qualifiedReadMs) before (s.sendQualifiedView opts now).calls := by
  have hcases : s.sendQualifiedView opts now = s ∨ _ := Tracking.sendQualifiedView_cases
  rcases hcases with hsame | ⟨startedAt, -, -, -, hview⟩
  · rw [hsame]
    exact hadds
  · rw [hview]
    exact hadds.call ⟨h.context, nofun, h.visitId⟩

theorem adds_sendDwell (h : DetailOk parseUuid opts)
    (hadds : Adds (Allowed parseUuid qualifiedReadMs) before s.calls) :
    Adds (Allowed parseUuid qualifiedReadMs) before (s.sendDwell opts trigger).calls := by
  have hcases : s.sendDwell opts trigger = s ∨ _ := Tracking.sendDwell_cases
  rcases hcases with hsame | ⟨-, hdwell⟩
  · rw [hsame]
    exact hadds
  · rw [hdwell]
    exact hadds.call ⟨h.context, h.visitId⟩

theorem adds_stopReading (h : DetailOk parseUuid opts)
    (hadds : Adds (Allowed parseUuid qualifiedReadMs) before s.calls) :
    Adds (Allowed parseUuid qualifiedReadMs) before (s.stopReading opts now trigger).calls := by
  unfold Tracking.stopReading
  split
  · exact hadds
  · exact h.adds_sendDwell (h.adds_sendQualifiedView hadds)

omit [Field K] [LinearOrder K] [FloorRing K] in
theorem calls_scheduleQualifiedView : s.scheduleQualifiedView.calls = s.calls := by
  unfold Tracking.scheduleQualifiedView
  split
  · rfl
  · rfl

/-- The tracker of a detail page adds allowed calls only. -/
theorem adds_syncReading (h : DetailOk parseUuid opts)
    (hadds : Adds (Allowed parseUuid qualifiedReadMs) before s.calls) :
    Adds (Allowed parseUuid qualifiedReadMs) before (s.syncReading opts now trigger).calls := by
  unfold Tracking.syncReading
  split
  · exact h.adds_stopReading hadds
  · split
    · rw [calls_scheduleQualifiedView]
      exact hadds
    · exact hadds

/-- What one event may call. -/
theorem adds_step (h : DetailOk parseUuid opts) (s : Tracking K) (e : K × DetailRead.Event K) :
    Adds (Allowed parseUuid qualifiedReadMs) s.calls (DetailRead.step opts s e).calls := by
  obtain ⟨now, e⟩ := e
  cases e with
  | intersect entries =>
    show Adds _ s.calls (if s.destroyed then s else s.handleIntersection opts now entries).calls
    split
    · exact .refl _
    · unfold Tracking.handleIntersection
      split
      · exact .refl _
      · exact h.adds_syncReading (.refl _)
  | visibilitychange visible =>
    show Adds _ s.calls (if s.destroyed then { s with documentVisible := visible }
      else ({ s with documentVisible := visible } : Tracking K).handleVisibilityChange opts now).calls
    split
    · exact .refl _
    · unfold Tracking.handleVisibilityChange
      dsimp only
      split
      · exact (h.adds_syncReading (.refl _)).call trivial
      · exact h.adds_syncReading (.refl _)
  | pagehide =>
    show Adds _ s.calls (if s.destroyed then s else s.handlePageHide opts now).calls
    split
    · exact .refl _
    · exact (h.adds_syncReading (s := { s with pageShown := false }) (.refl _)).call trivial
  | pageshow =>
    show Adds _ s.calls (if s.destroyed then s else s.handlePageShow opts now).calls
    split
    · exact .refl _
    · exact h.adds_syncReading (s := { s with pageShown := true }) (.refl _)
  | timer handle =>
    show Adds _ s.calls (if handle ∈ s.timers.pending then
      ({ s with timers := s.timers.fire handle } : Tracking K).handleTimer opts now else s).calls
    split
    · unfold Tracking.handleTimer
      dsimp only
      split
      · exact .refl _
      · -- a view, or the timeout is set once more
        split
        · exact h.adds_sendQualifiedView (.refl _)
        · rw [calls_scheduleQualifiedView]
          exact h.adds_sendQualifiedView (.refl _)
    · exact .refl _
  | destroy =>
    show Adds _ s.calls (s.destroy opts now).calls
    unfold Tracking.destroy
    split
    · exact .refl _
    · exact (h.adds_stopReading (s := { s with destroyed := true }) (.refl _)).call trivial

end DetailOk

end Trackers

/-! ### Pages -/

/-- A page: its client, and its trackers with what they were given. -/
structure Page (K : Type*) where
  client : Client K := {}
  feed : List (ViewTracker.Options K × ViewTracker.Tracking K) := []
  details : List (DetailRead.Options K × DetailRead.Tracking K) := []

/-- What happens on a page.  The monotonic clock shows `now`, and the clock of the client `date`; the
    context of a detail page is the one that `detailContext` returned. -/
inductive Action (K : Type*) where
  | viewTracker (context : RecommendationContext) (documentVisible : Bool)
  | detailReadTracker (context : RecommendationContext) (visitId : Option String) (documentVisible : Bool)
  | feed (i : Nat) (now : K) (e : ViewTracker.Event K) (date : Int)
  | detail (i : Nat) (now : K) (e : DetailRead.Event K) (date : Int)
  | trackRecommendationClick (context : RecommendationContext) (date : Int)
  | client (a : Telemetry.Action K)
  deriving DecidableEq, Repr

/-- The ids that an action brings to the page are UUIDs. -/
def Action.HasUuids (parseUuid : String → Option Ingestion.Uuid) : Action K → Prop
  | .viewTracker context _ => ContextOk parseUuid context
  | .detailReadTracker context visitId _ => ContextOk parseUuid context ∧ VisitOk parseUuid visitId
  | .trackRecommendationClick context _ => ContextOk parseUuid context
  | _ => True

/-- The options of the client: version `v2`, and a session id that it created. -/
def clientOptions (viewerId : Option String) (randomUUID : Nat → String) : ClientOptions :=
  ⟨viewerId, randomUUID 0, .v2⟩

section Page

variable (viewerId : Option String) (randomUUID : Nat → String) (qualifiedReadMs : Int)

/-- Calls of the recorder, one after the other; the first id was the one of the session. -/
def recordAll (date : Int) (calls : List (Call K)) (c : Client K) : Client K :=
  calls.foldl (fun c call => c.record (clientOptions viewerId randomUUID) (fun n => randomUUID (n + 1)) date call) c

/-- One action.  The recorder is called by the trackers and by `trackRecommendationClick`. -/
def step [Arithmetic K] (page : Page K) : Action K → Option (Page K)
  | .viewTracker context documentVisible =>
    let opts := ⟨context, (qualifiedReadMs : K)⟩
    some { page with feed := page.feed ++ [(opts, .start documentVisible)] }
  | .detailReadTracker context visitId documentVisible =>
    let opts := ⟨context, visitId, (qualifiedReadMs : K)⟩
    some { page with details := page.details ++ [(opts, .start documentVisible)] }
  | .feed i now e date =>
    match page.feed[i]? with
    | none => none
    | some (opts, s) =>
      let t := ViewTracker.step opts s (now, e)
      some { page with
        feed := page.feed.set i (opts, t)
        client := recordAll viewerId randomUUID date (t.calls.drop s.calls.length) page.client }
  | .detail i now e date =>
    match page.details[i]? with
    | none => none
    | some (opts, s) =>
      let t := DetailRead.step opts s (now, e)
      some { page with
        details := page.details.set i (opts, t)
        client := recordAll viewerId randomUUID date (t.calls.drop s.calls.length) page.client }
  | .trackRecommendationClick context date =>
    some { page with client := recordAll viewerId randomUUID date [.click context, .flush] page.client }
  | .client (.record _ _) => none
  | .client a =>
    (page.client.step (clientOptions viewerId randomUUID) (fun n => randomUUID (n + 1)) a).map
      fun client => { page with client }

end Page

/-- The client holds events that can be sent, and the trackers have UUIDs and the threshold. -/
structure Ready (parseUuid : String → Option Ingestion.Uuid) (qualifiedReadMs : Int) (page : Page K) :
    Prop where
  client : Holds (Sendable parseUuid qualifiedReadMs) page.client
  feed : ∀ tracker ∈ page.feed, FeedOk parseUuid qualifiedReadMs tracker.1
  details : ∀ tracker ∈ page.details, DetailOk parseUuid tracker.1

section Runs

variable [IsStrictOrderedRing K] {parseUuid : String → Option Ingestion.Uuid} {viewerId : Option String}
  {randomUUID : Nat → String} {qualifiedReadMs : Int}

omit [Field K] [LinearOrder K] [FloorRing K] [IsStrictOrderedRing K] in
theorem clientOk (hdrawn : ∀ n, (parseUuid (randomUUID n)).isSome) :
    ClientOk parseUuid (clientOptions viewerId randomUUID) fun n => randomUUID (n + 1) :=
  ⟨rfl, hdrawn 0, fun n => hdrawn (n + 1)⟩

/-- So can what it makes of the calls of a tracker. -/
theorem sendable_recordAll (hdrawn : ∀ n, (parseUuid (randomUUID n)).isSome) {date : Int}
    {calls : List (Call K)} {c : Client K} (hcalls : ∀ call ∈ calls, Allowed parseUuid qualifiedReadMs call)
    (h : Holds (Sendable parseUuid qualifiedReadMs) c) :
    Holds (Sendable parseUuid qualifiedReadMs) (recordAll viewerId randomUUID date calls c) := by
  induction calls generalizing c with
  | nil => exact h
  | cons call calls ih =>
    obtain ⟨hcall, hcalls⟩ := List.forall_mem_cons.mp hcalls
    exact ih hcalls (sendable_record (clientOk hdrawn) hcall h)

variable [Arithmetic K]

omit [IsStrictOrderedRing K] in
/-- Beside its calls, what happens to the client is its own. -/
theorem step_client {page page' : Page K} {a : Telemetry.Action K}
    (h : step viewerId randomUUID qualifiedReadMs page (.client a) = some page') :
    ∃ client, page.client.step (clientOptions viewerId randomUUID) (fun n => randomUUID (n + 1)) a = some client
      ∧ page' = { page with client } ∧ ∀ call now, a ≠ .record call now := by
  cases a with
  | record call now => cases h
  | timer handle =>
    obtain ⟨client, hclient, rfl⟩ := Option.map_eq_some_iff.mp h
    exact ⟨client, hclient, rfl, nofun⟩
  | answer id answer =>
    obtain ⟨client, hclient, rfl⟩ := Option.map_eq_some_iff.mp h
    exact ⟨client, hclient, rfl, nofun⟩
  | discardPending =>
    rw [← Option.some.inj h]
    exact ⟨_, rfl, rfl, nofun⟩

/-- **Every action** leaves a client with events that can be sent. -/
theorem ready_step (hdrawn : ∀ n, (parseUuid (randomUUID n)).isSome) (hmin : 1 ≤ qualifiedReadMs)
    (hmax : qualifiedReadMs ≤ maxDwellMs) {page page' : Page K} {a : Action K} (ha : a.HasUuids parseUuid)
    (h : Ready parseUuid qualifiedReadMs page)
    (hstep : step viewerId randomUUID qualifiedReadMs page a = some page') :
    Ready parseUuid qualifiedReadMs page' := by
  cases a with
  | viewTracker context documentVisible =>
    rw [← Option.some.inj hstep]
    refine ⟨h.client, fun tracker htracker => ?_, h.details⟩
    rcases List.mem_append.mp htracker with hold | hnew
    · exact h.feed tracker hold
    · -- a whole threshold in range is sent as it is
      rw [List.mem_singleton.mp hnew]
      exact ⟨ha, (clampMilliseconds_intCast (by omega) hmax).ge⟩
  | detailReadTracker context visitId documentVisible =>
    rw [← Option.some.inj hstep]
    refine ⟨h.client, h.feed, fun tracker htracker => ?_⟩
    rcases List.mem_append.mp htracker with hold | hnew
    · exact h.details tracker hold
    · rw [List.mem_singleton.mp hnew]
      exact ⟨ha.1, ha.2⟩
  | feed i now e date =>
    unfold step at hstep
    dsimp only at hstep
    split at hstep
    · cases hstep
    · next opts s htracker =>
      have hopts : FeedOk parseUuid qualifiedReadMs opts := h.feed _ (List.mem_of_getElem? htracker)
      rw [← Option.some.inj hstep]
      refine ⟨sendable_recordAll hdrawn (hopts.adds_step s (now, e)).drop h.client, ?_, h.details⟩
      intro tracker hmem
      rcases List.mem_or_eq_of_mem_set hmem with hold | rfl
      · exact h.feed tracker hold
      · exact hopts
  | detail i now e date =>
    unfold step at hstep
    dsimp only at hstep
    split at hstep
    · cases hstep
    · next opts s htracker =>
      have hopts : DetailOk parseUuid opts := h.details _ (List.mem_of_getElem? htracker)
      rw [← Option.some.inj hstep]
      refine ⟨sendable_recordAll hdrawn (hopts.adds_step s (now, e)).drop h.client, h.feed, ?_⟩
      intro tracker hmem
      rcases List.mem_or_eq_of_mem_set hmem with hold | rfl
      · exact h.details tracker hold
      · exact hopts
  | trackRecommendationClick context date =>
    rw [← Option.some.inj hstep]
    have hcalls : ∀ call ∈ [Call.click context, .flush], Allowed (K := K) parseUuid qualifiedReadMs call := by
      simpa [Allowed, Action.HasUuids] using ha
    exact ⟨sendable_recordAll hdrawn hcalls h.client, h.feed, h.details⟩
  | client a =>
    obtain ⟨client, hclient, rfl, hnone⟩ := step_client hstep
    exact ⟨h.client.step (fun call now heq => absurd heq (hnone call now)) hclient, h.feed, h.details⟩

/-- **Every event that a page sends is accepted**, where the ids are UUIDs and page and server have one
    threshold. -/
theorem batches_accepted {read : K → Json} (hreads : Reads parseUuid read)
    (hdrawn : ∀ n, (parseUuid (randomUUID n)).isSome) (hmin : 1 ≤ qualifiedReadMs)
    (hmax : qualifiedReadMs ≤ 1800000) {as : List (Action K)} (huuids : ∀ a ∈ as, a.HasUuids parseUuid)
    {page : Page K} (hrun : Lib.run (step viewerId randomUUID qualifiedReadMs) {} as = some page) :
    ∀ request ∈ page.client.requests, ∀ event ∈ request.batch,
      Accepted parseUuid read qualifiedReadMs event := by
  have hstart : Ready parseUuid qualifiedReadMs ({} : Page K) := by
    refine ⟨⟨?_, ?_, ?_⟩, ?_, ?_⟩ <;> simp
  have hready : Ready parseUuid qualifiedReadMs page := by
    refine Lib.run_invariant_along (P := Ready parseUuid qualifiedReadMs) ?_ hstart hrun
      (Lib.along_of_forall (fun a ha _ => huuids a ha) _)
    exact fun _ _ _ h ha hstep => ready_step hdrawn hmin hmax ha h hstep
  intro request hrequest event hevent
  exact (hready.client.sent request hrequest event hevent).accepted hreads

end Runs

/-- Numbers in range are read in tenths. -/
def readTenths (x : ℚ) : Json :=
  if x = 1 then .int 1 else if 1 / 2 ≤ x ∧ x < 1 then .float ⟨false, ⌊x * 10⌋.toNat, -1⟩ else .int 0

/-- Sixteen UUIDs are known. -/
def parseKnown (text : String) : Option Ingestion.Uuid :=
  ((List.range 16).map fun n => (Python.uuidText n, n)).lookup text

theorem reads_known : Reads parseKnown readTenths := by
  have hsizes : ∀ n ∈ List.range 16, (Python.uuidText n).utf8ByteSize ≤ 45 := by decide +kernel
  have hshort : ∀ n < 10, (Label.Rust.serde.write (.float ⟨false, n, -1⟩)).utf8ByteSize ≤ 32 := by
    decide +kernel
  have htenths : ∀ x : ℚ, x < 1 → ⌊x * 10⌋.toNat < 10 := by
    intro x hx
    have hfloor : ⌊x * 10⌋ < 10 := Int.floor_lt.mpr (by push_cast; linarith)
    omega
  refine ⟨fun text id h => ?_, fun x => ?_, fun x => ?_⟩
  · obtain ⟨before, after, hsplit, -⟩ := List.lookup_eq_some_iff.mp h
    have hmem : (text, id) ∈ (List.range 16).map fun n => (Python.uuidText n, n) := by simp [hsplit]
    obtain ⟨n, hn, heq⟩ := List.mem_map.mp hmem
    rw [← (Prod.mk.inj heq).1]
    exact hsizes n hn
  · unfold readTenths
    split
    · next hone =>
      subst hone
      decide +kernel
    · next hne =>
      split
      · next hrange =>
        have hlow : 5 ≤ ⌊x * 10⌋ := Int.le_floor.mpr (by push_cast; linarith)
        have hhigh := htenths x hrange.2
        have hdigits : 10 ≤ 2 * ⌊x * 10⌋.toNat ∧ ⌊x * 10⌋.toNat * 1 ≤ 10 := by omega
        rw [decide_eq_true ⟨hrange.1, hrange.2.le⟩]
        show some (!false && decide (10 ≤ 2 * (⌊x * 10⌋.toNat * 1) ∧ ⌊x * 10⌋.toNat * 1 ≤ 10)) = some true
        rw [decide_eq_true ⟨by omega, hdigits.2⟩]
        rfl
      · next hout =>
        have hno : ¬ (1 / 2 ≤ x ∧ x ≤ 1) := fun h => hout ⟨h.1, lt_of_le_of_ne h.2 hne⟩
        rw [decide_eq_false hno]
        rfl
  · unfold readTenths
    split
    · decide +kernel
    · split
      · next hrange => exact hshort _ (htenths x hrange.2)
      · decide +kernel

/-- A post is read in the feed, opened, and read on its page. -/
def readTwice : List (Action ℚ) :=
  let context : RecommendationContext := ⟨Python.uuidText 1, some (Python.uuidText 2), none, none, none⟩
  let direct : RecommendationContext := ⟨Python.uuidText 1, none, none, none, none⟩
  [.viewTracker context true, .feed 0 0 (.intersect [⟨true, 4 / 5⟩]) 0, .feed 0 801 (.visibleTimer 1) 801,
    .feed 0 10001 (.viewTimer 1) 10001, .trackRecommendationClick context 11000, .feed 0 11001 .destroy 11001,
    .detailReadTracker direct (some (Python.uuidText 3)) true,
    .detail 0 12000 (.intersect [⟨true, 1 / 5⟩]) 12000, .client (.answer 0 (.status 200)),
    .detail 0 30000 .pagehide 30000]

theorem reading_twice_is_accepted :
    ∃ page : Page ℚ, Lib.run (step none (fun n => Python.uuidText (n % 16)) 10000) {} readTwice = some page
      ∧ page.client.requests.map (fun request => request.batch.map (·.eventType))
        = [[.visible, .view, .click], [.dwell, .view, .dwell]]
      ∧ ∀ request ∈ page.client.requests, ∀ event ∈ request.batch,
        Accepted parseKnown readTenths 10000 event := by
  have hrun : (Lib.run (step none (fun n => Python.uuidText (n % 16)) 10000) ({} : Page ℚ) readTwice).map
      (fun page => page.client.requests.map fun request => request.batch.map (·.eventType))
        = some [[.visible, .view, .click], [.dwell, .view, .dwell]] := by decide +kernel
  obtain ⟨page, hrun, hrequests⟩ := Option.map_eq_some_iff.mp hrun
  have hknown : ∀ m < 16, (parseKnown (Python.uuidText m)).isSome := by decide +kernel
  have hcontext : ∀ impressionId ∈ [none, some (Python.uuidText 2)],
      ContextOk parseKnown ⟨Python.uuidText 1, impressionId, none, none, none⟩ := by
    rintro impressionId himpression
    refine ⟨hknown 1 (by decide), ?_⟩
    rcases List.mem_pair.mp himpression with rfl | rfl
    · exact nofun
    · rintro text ⟨⟩
      exact hknown 2 (by decide)
  have hvisit : VisitOk parseKnown (some (Python.uuidText 3)) := by
    rintro text ⟨⟩
    exact hknown 3 (by decide)
  refine ⟨page, hrun, hrequests,
    batches_accepted reads_known (fun n => hknown _ (Nat.mod_lt _ (by decide))) (by decide) (by decide) ?_ hrun⟩
  simp [readTwice, Action.HasUuids, hcontext, hvisit]

end Oecophylla.Frontend.Batches
