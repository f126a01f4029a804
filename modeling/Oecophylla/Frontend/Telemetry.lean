import Mathlib.Data.List.Nodup
import Mathlib.Data.Set.Function
import Oecophylla.Frontend.Recorder
import Oecophylla.Lib.Run
import Oecophylla.Python.UuidText

namespace Oecophylla.Frontend.Telemetry

/-!
# The telemetry client — `recommendationTelemetry.ts`

`RecommendationTelemetryClient` collects events in a queue and sends them in batches.  A flush is an
asynchronous function that waits for the answer to its request, perhaps for a new session, and for the
answer to the request that it repeats; it is a `Flight` here.  An action runs until every promise that
it settles has called back.

* `step` — one action: a call of the recorder, a timeout, an answer, or `discardPending`;
* `Sound` — what holds after every action;
* `Live` — a queue that is not empty is on its way.
-/

/-- `'v1' | 'v2'`. -/
inductive LabelVersion where
  | v1
  | v2
  deriving DecidableEq, Repr

/-- The text of a version. -/
def LabelVersion.text : LabelVersion → String
  | .v1 => "v1"
  | .v2 => "v2"

/-- `BehaviorEvent['event_type']`. -/
inductive EventType where
  | visible
  | view
  | click
  | dwell
  deriving DecidableEq, Repr

/-- The text of a type. -/
def EventType.text : EventType → String
  | .visible => "visible"
  | .view => "view"
  | .click => "click"
  | .dwell => "dwell"

/-- A value of the metadata; a duration is a whole number. -/
inductive MetaValue (K : Type*) where
  | text (s : String)
  | integer (n : Int)
  | number (x : K)
  deriving DecidableEq, Repr

/-- `BehaviorEvent`; `occurredAt` counts milliseconds. -/
structure BehaviorEvent (K : Type*) where
  clientEventId : String
  postId : String
  impressionId : Option String
  sessionId : String
  eventType : EventType
  eventVersion : LabelVersion
  dwellMs : Option Int
  metadata : List (String × MetaValue K)
  occurredAt : Int
  deriving DecidableEq, Repr

/-- What a flush waits for. -/
inductive Awaiting where
  | response
  | refresh
  | secondResponse
  deriving DecidableEq, Repr

/-- A flush that has not ended, with the batch that it captured. -/
structure Flight (K : Type*) where
  id : Nat
  batch : List (BehaviorEvent K)
  awaiting : Awaiting

/-- A request that was issued, and whether the client was disposed of by then. -/
structure Request (K : Type*) where
  batch : List (BehaviorEvent K)
  disposed : Bool

/-- The fields of a client that do not change. -/
structure ClientOptions where
  viewerId : Option String
  sessionId : String
  labelVersion : LabelVersion
  deriving DecidableEq, Repr

/-- The fields of a client, with the flushes that run and the requests so far. -/
structure Client (K : Type*) where
  visibleKeys : List String := []
  viewKeys : List String := []
  queue : List (BehaviorEvent K) := []
  flushTimer : Option Nat := none
  flushInFlight : Bool := false
  disposed : Bool := false
  timers : Timers := {}
  /-- How many ids were drawn. -/
  drawn : Nat := 0
  /-- How many flushes were started. -/
  started : Nat := 0
  flights : List (Flight K) := []
  requests : List (Request K) := []

/-- What a flush waits for, when it comes. -/
inductive Answer where
  | status (code : Nat)
  | networkError
  | refreshed (ok : Bool)
  | refreshFailed
  deriving DecidableEq, Repr

/-- What happens to a client; the clock shows `now`. -/
inductive Action (K : Type*) where
  | record (call : Call K) (now : Int)
  | timer (handle : Nat)
  | answer (flight : Nat) (answer : Answer)
  | discardPending
  deriving DecidableEq, Repr

/-- `MAX_BATCH_SIZE`. -/
def maxBatchSize : Nat := 100

variable {K : Type*} [Field K] [LinearOrder K] [FloorRing K]

/-- `eventKey(context, visitId)`. -/
def eventKey (context : RecommendationContext) (visitId : Option String) : String :=
  match context.impressionId with
  | some impressionId => impressionId
  | none =>
    match visitId.filter (· ≠ "") with
    | some visitId => "visit:" ++ visitId
    | none => context.requestId.getD "direct" ++ ":" ++ context.postId

/-- `...(visitId ? { visit_id: visitId } : {})`. -/
def visitMetadata (visitId : Option String) : List (String × MetaValue K) :=
  match visitId.filter (· ≠ "") with
  | some visitId => [("visit_id", .text visitId)]
  | none => []

/-- `!response.ok && (response.status === 429 || response.status >= 500)`. -/
def retryable (status : Nat) : Bool :=
  !(200 ≤ status && status < 300) && (status = 429 || 500 ≤ status)

namespace Client

variable (opts : ClientOptions) (randomUUID : Nat → String) (now : Int) (c : Client K)

/-- `scheduleFlush(delayMs)`; a timeout may fire later than its delay. -/
def scheduleFlush : Client K :=
  if c.disposed = true ∨ c.flushTimer.isSome = true then c
  else { c with flushTimer := some c.timers.next, timers := c.timers.set }

/-- `enqueue(context, eventType, dwellMs, metadata)`. -/
def enqueue (context : RecommendationContext) (eventType : EventType) (dwellMs : Option Int)
    (metadata : List (String × MetaValue K)) : Client K :=
  if c.disposed then c
  else
    let event : BehaviorEvent K :=
      { clientEventId := randomUUID c.drawn
        postId := context.postId
        impressionId := context.impressionId
        sessionId := opts.sessionId
        eventType
        eventVersion := opts.labelVersion
        dwellMs
        metadata
        occurredAt := now }
    scheduleFlush { c with queue := c.queue ++ [event], drawn := c.drawn + 1 }

attribute [local instance] Lib.atLeastTwo_two

/-- `visible(context, viewportRatio)`. -/
def visible (context : RecommendationContext) (viewportRatio : K) : Client K :=
  let key := eventKey context none
  if key ∈ c.visibleKeys then c
  else enqueue opts randomUUID now { c with visibleKeys := c.visibleKeys ++ [key] } context .visible none
    [("viewport_ratio", .number (min 1 (max (1 / 2) viewportRatio)))]

/-- `view(context, trigger, continuousVisibleMs, visitId)`. -/
def view (context : RecommendationContext) (trigger : ViewTrigger) (continuousVisibleMs : K)
    (visitId : Option String) : Client K :=
  let key := eventKey context visitId
  if key ∈ c.viewKeys then c
  else
    let durationMs := clampMilliseconds continuousVisibleMs
    enqueue opts randomUUID now { c with viewKeys := c.viewKeys ++ [key] } context .view (some durationMs)
      ([("continuous_visible_ms", .integer durationMs), ("trigger", .text trigger.text)]
        ++ visitMetadata visitId)

/-- `click(context)`; the context that it keeps for the detail page is not used here. -/
def click (context : RecommendationContext) : Client K :=
  if c.disposed then c
  else c.enqueue opts randomUUID now context .click none [("target", .text "post_detail")]

/-- `dwell(context, dwellMs, trigger, visitId)`. -/
def dwell (context : RecommendationContext) (dwellMs : K) (trigger : DwellTrigger)
    (visitId : Option String) : Client K :=
  c.enqueue opts randomUUID now context .dwell (some (clampMilliseconds dwellMs))
    ([("trigger", .text trigger.text)] ++ visitMetadata visitId)

/-- `clearTimeout(this.flushTimer)`. -/
def clearFlushTimer : Client K := { c with timers := c.timers.clear c.flushTimer, flushTimer := none }

/-- `sendBatch()`. -/
def sendBatch (batch : List (BehaviorEvent K)) : Client K :=
  { c with requests := c.requests ++ [⟨batch, c.disposed⟩] }

/-- `flush()`, up to the first request. -/
def flush : Client K :=
  if c.disposed then c
  else
    let cleared := c.clearFlushTimer
    if cleared.flushInFlight then cleared
    else if cleared.queue = [] then cleared
    else
      let batch := cleared.queue.take maxBatchSize
      sendBatch
        { cleared with
          flushInFlight := true
          started := cleared.started + 1
          flights := cleared.flights ++ [⟨cleared.started, batch, .response⟩] }
        batch

/-- What a flush does with the last answer that it waits for. -/
def takeStatus (batch : List (BehaviorEvent K)) (status : Nat) : Client K :=
  if retryable status then c.scheduleFlush
  else
    let batchIds := batch.map (·.clientEventId)
    let queue := c.queue.filter fun event => event.clientEventId ∉ batchIds
    if queue = [] then { c with queue } else { c with queue }.scheduleFlush

/-- `finally`: the flush has ended. -/
def settle (flight : Flight K) : Client K :=
  { c with flushInFlight := false, flights := c.flights.filter fun f => f.id ≠ flight.id }

/-- A flush waits for something else. -/
def await (flight : Flight K) (awaiting : Awaiting) : Client K :=
  { c with flights := c.flights.map fun f => if f.id = flight.id then { f with awaiting } else f }

/-- A flush goes on with what it waited for. -/
def resume (flight : Flight K) (answer : Answer) : Option (Client K) :=
  match flight.awaiting, answer with
  | .response, .status status =>
    if status = 401 then some (c.await flight .refresh)
    else some ((c.takeStatus flight.batch status).settle flight)
  | .refresh, .refreshed true => some ((c.await flight .secondResponse).sendBatch flight.batch)
  | .refresh, .refreshed false => some ((c.takeStatus flight.batch 401).settle flight)
  | .refresh, .refreshFailed => some (c.scheduleFlush.settle flight)
  | .secondResponse, .status status => some ((c.takeStatus flight.batch status).settle flight)
  | .response, .networkError => some (c.scheduleFlush.settle flight)
  | .secondResponse, .networkError => some (c.scheduleFlush.settle flight)
  | _, _ => none

/-- `discardPending()`. -/
def discardPending : Client K := { c.clearFlushTimer with disposed := true, queue := [] }

/-- A call of the recorder. -/
def record : Call K → Client K
  | .visible context viewportRatio => c.visible opts randomUUID now context viewportRatio
  | .view context trigger continuousVisibleMs visitId =>
    c.view opts randomUUID now context trigger continuousVisibleMs visitId
  | .click context => c.click opts randomUUID now context
  | .dwell context dwellMs trigger visitId => c.dwell opts randomUUID now context dwellMs trigger visitId
  | .flush => c.flush

/-- One action; a timeout fires while it is pending, and only a flush that runs is answered. -/
def step : Action K → Option (Client K)
  | .record call now => some (c.record opts randomUUID now call)
  | .timer handle =>
    if handle ∈ c.timers.pending then
      some { c with timers := c.timers.fire handle, flushTimer := none }.flush
    else none
  | .answer id answer =>
    match c.flights.find? fun flight => flight.id = id with
    | none => none
    | some flight => c.resume flight answer
  | .discardPending => some c.discardPending

end Client

/-- An answer after which a flush drops its batch. -/
def nonRetryable : Awaiting → Answer → Bool
  | .response, .status status => status ≠ 401 && !retryable status
  | .refresh, .refreshed ok => !ok
  | .secondResponse, .status status => !retryable status
  | _, _ => false

/-! ### What holds after every action -/

namespace Client

/-- The events of a client have increasing numbers, one flush runs where the flag says so, and what it
    captured is still queued. -/
structure Sound (randomUUID : Nat → String) (c : Client K) : Prop where
  drawn : ∃ ns : List Nat, ns.Pairwise (· < ·) ∧ (∀ n ∈ ns, n < c.drawn)
    ∧ c.queue.map (·.clientEventId) = ns.map randomUUID
  flying : c.flights = [] ∧ c.flushInFlight = false
    ∨ ∃ flight, c.flights = [flight] ∧ c.flushInFlight = true
  captured : ∀ flight ∈ c.flights, flight.batch ≠ [] ∧ flight.batch.length ≤ maxBatchSize
    ∧ (c.disposed = false → ∀ event ∈ flight.batch, event ∈ c.queue)
  requested : ∀ request ∈ c.requests, request.batch.length ≤ maxBatchSize
  pending : ∀ handle, c.flushTimer = some handle → handle ∈ c.timers.pending
  gone : c.disposed = true → c.queue = []

/-- A queue that is not empty has a timeout or a flush. -/
def Live (c : Client K) : Prop :=
  c.disposed = false → c.queue ≠ [] → c.flushTimer.isSome = true ∨ c.flights ≠ []

variable {opts : ClientOptions} {randomUUID : Nat → String} {now : Int} {c : Client K}

omit [Field K] [LinearOrder K] [FloorRing K] in
theorem sound_scheduleFlush (h : Sound randomUUID c) : Sound randomUUID c.scheduleFlush := by
  unfold scheduleFlush
  split
  · exact h
  · refine ⟨h.drawn, h.flying, h.captured, h.requested, ?_, h.gone⟩
    rintro handle ⟨⟩
    exact List.mem_append_right _ (List.mem_singleton.mpr rfl)

omit [Field K] [LinearOrder K] [FloorRing K] in
/-- Where a flush is scheduled, the queue is on its way. -/
theorem live_scheduleFlush : c.scheduleFlush.Live := by
  unfold scheduleFlush
  split
  · next hkept =>
    rcases hkept with hdisposed | htimer
    · exact fun hlive => absurd (hlive.symm.trans hdisposed) Bool.false_ne_true
    · exact fun _ _ => Or.inl htimer
  · exact fun _ _ => Or.inl rfl

omit [Field K] [LinearOrder K] [FloorRing K] in
/-- Scheduling a flush touches the timeouts alone. -/
theorem scheduleFlush_same : c.scheduleFlush.queue = c.queue ∧ c.scheduleFlush.flights = c.flights
    ∧ c.scheduleFlush.disposed = c.disposed ∧ c.scheduleFlush.requests = c.requests
    ∧ c.scheduleFlush.drawn = c.drawn := by
  unfold scheduleFlush
  split
  · exact ⟨rfl, rfl, rfl, rfl, rfl⟩
  · exact ⟨rfl, rfl, rfl, rfl, rfl⟩

omit [Field K] [LinearOrder K] [FloorRing K] in
/-- A new event has the next number. -/
theorem sound_enqueue {context : RecommendationContext} {eventType : EventType} {dwellMs : Option Int}
    {metadata : List (String × MetaValue K)} (h : Sound randomUUID c) :
    Sound randomUUID (c.enqueue opts randomUUID now context eventType dwellMs metadata) := by
  unfold enqueue
  split
  · exact h
  · next hlive =>
    refine sound_scheduleFlush ⟨?_, h.flying, ?_, h.requested, h.pending, fun hgone => absurd hgone hlive⟩
    · obtain ⟨ns, hincreasing, hdrawn, hids⟩ := h.drawn
      refine ⟨ns ++ [c.drawn], ?_, ?_, ?_⟩
      · rw [List.pairwise_append]
        refine ⟨hincreasing, List.pairwise_singleton _ _, fun n hn m hm => ?_⟩
        rw [List.mem_singleton.mp hm]
        exact hdrawn n hn
      · intro n hn
        rcases List.mem_append.mp hn with hn | hn
        · exact Nat.lt_succ_of_lt (hdrawn n hn)
        · rw [List.mem_singleton.mp hn]
          exact Nat.lt_succ_self _
      · rw [List.map_append, List.map_append, hids]
        rfl
    · intro flight hflight
      obtain ⟨hne, hlength, hqueued⟩ := h.captured flight hflight
      exact ⟨hne, hlength, fun hlive event hevent =>
        List.mem_append_left _ (hqueued hlive event hevent)⟩

omit [Field K] [LinearOrder K] [FloorRing K] in
theorem live_enqueue {context : RecommendationContext} {eventType : EventType} {dwellMs : Option Int}
    {metadata : List (String × MetaValue K)} :
    (c.enqueue opts randomUUID now context eventType dwellMs metadata).Live := by
  unfold enqueue
  split
  · next hdisposed => exact fun hlive => absurd (hlive.symm.trans hdisposed) Bool.false_ne_true
  · exact live_scheduleFlush

omit [Field K] [LinearOrder K] [FloorRing K] in
/-- `flush` starts one where none runs. -/
theorem sound_flush (h : Sound randomUUID c) : Sound randomUUID c.flush := by
  unfold flush
  split
  · exact h
  · next hlive =>
    have hcleared : Sound randomUUID c.clearFlushTimer :=
      ⟨h.drawn, h.flying, h.captured, h.requested, nofun, h.gone⟩
    dsimp only
    split
    · exact hcleared
    · next hidle =>
      split
      · exact hcleared
      · next hqueue =>
        have hnone : c.flights = [] := by
          rcases h.flying with ⟨hnone, -⟩ | ⟨flight, -, hflag⟩
          · exact hnone
          · exact absurd hflag hidle
        have hbatch : (c.queue.take maxBatchSize).length ≤ maxBatchSize := List.length_take_le _ _
        refine ⟨h.drawn, Or.inr ⟨⟨c.started, c.queue.take maxBatchSize, .response⟩, ?_, rfl⟩, ?_, ?_, nofun,
          h.gone⟩
        · show c.flights ++ [_] = _
          rw [hnone]
          rfl
        · intro flight hflight
          have hflight' : flight ∈ c.flights ++ [⟨c.started, c.queue.take maxBatchSize, .response⟩] := hflight
          rw [hnone, List.nil_append, List.mem_singleton] at hflight'
          subst hflight'
          refine ⟨?_, hbatch, fun _ event hevent => List.mem_of_mem_take hevent⟩
          rw [Ne, List.take_eq_nil_iff]
          rintro (hzero | hnil)
          · exact absurd hzero (by decide)
          · exact hqueue hnil
        · intro request hrequest
          rcases List.mem_append.mp hrequest with hold | hnew
          · exact h.requested request hold
          · rw [List.mem_singleton.mp hnew]
            exact hbatch

omit [Field K] [LinearOrder K] [FloorRing K] in
/-- After `flush` a flush runs, or there is nothing to send. -/
theorem live_flush (h : Sound randomUUID c) : c.flush.Live := by
  unfold flush
  split
  · next hdisposed => exact fun hlive => absurd (hlive.symm.trans hdisposed) Bool.false_ne_true
  · dsimp only
    split
    · next hflag =>
      intro _ _
      rcases h.flying with ⟨-, hidle⟩ | ⟨flight, hflight, -⟩
      · exact absurd (hidle.symm.trans hflag) Bool.false_ne_true
      · right
        show c.flights ≠ []
        rw [hflight]
        exact List.cons_ne_nil _ _
    · split
      · next hqueue => exact fun _ hne => absurd hqueue hne
      · exact fun _ _ => Or.inr (List.append_ne_nil_of_right_ne_nil _ (List.cons_ne_nil _ _))

/-! ### What an answer does -/

omit [Field K] [LinearOrder K] [FloorRing K] in
/-- A flush that ends schedules the next one as if it had ended before. -/
theorem settle_scheduleFlush (flight : Flight K) :
    c.scheduleFlush.settle flight = (c.settle flight).scheduleFlush := by
  by_cases h : c.disposed = true ∨ c.flushTimer.isSome = true
  · have hkept : c.scheduleFlush = c := if_pos h
    have hkept' : (c.settle flight).scheduleFlush = c.settle flight := if_pos h
    rw [hkept, hkept']
  · have hset : c.scheduleFlush = { c with flushTimer := some c.timers.next, timers := c.timers.set } :=
      if_neg h
    have hset' : (c.settle flight).scheduleFlush
        = { c.settle flight with flushTimer := some c.timers.next, timers := c.timers.set } := if_neg h
    rw [hset, hset']
    rfl

omit [Field K] [LinearOrder K] [FloorRing K] in
theorem settle_takeStatus (flight : Flight K) (batch : List (BehaviorEvent K)) (status : Nat) :
    (c.takeStatus batch status).settle flight = (c.settle flight).takeStatus batch status := by
  unfold takeStatus
  split
  · exact settle_scheduleFlush flight
  · dsimp only
    split
    · next hqueue => exact (if_pos hqueue).symm
    · next hqueue => exact (settle_scheduleFlush flight).trans (if_neg hqueue).symm

omit [Field K] [LinearOrder K] [FloorRing K] in
/-- After the last answer no flush runs. -/
theorem sound_settle {flight : Flight K} (h : Sound randomUUID c) (hflight : flight ∈ c.flights) :
    Sound randomUUID (c.settle flight) ∧ (c.settle flight).flights = [] := by
  have hnone : (c.settle flight).flights = [] := by
    rcases h.flying with ⟨hnone, -⟩ | ⟨flight', hone, -⟩
    · rw [hnone] at hflight
      cases hflight
    · rw [hone, List.mem_singleton] at hflight
      show c.flights.filter _ = []
      rw [hone, hflight]
      simp
  refine ⟨⟨h.drawn, Or.inl ⟨hnone, rfl⟩, ?_, h.requested, h.pending, h.gone⟩, hnone⟩
  rw [hnone]
  exact nofun

omit [Field K] [LinearOrder K] [FloorRing K] in
/-- A part of the queue keeps its numbers. -/
theorem drawn_filter {p : BehaviorEvent K → Bool} (h : Sound randomUUID c) :
    ∃ ns : List Nat, ns.Pairwise (· < ·) ∧ (∀ n ∈ ns, n < c.drawn)
      ∧ (c.queue.filter p).map (·.clientEventId) = ns.map randomUUID := by
  obtain ⟨ns, hincreasing, hdrawn, hids⟩ := h.drawn
  have hsub : ((c.queue.filter p).map (·.clientEventId)).Sublist (ns.map randomUUID) := by
    rw [← hids]
    exact List.filter_sublist.map _
  obtain ⟨ns', hns', hids'⟩ := List.sublist_map_iff.mp hsub
  exact ⟨ns', hincreasing.sublist hns', fun n hn => hdrawn n (hns'.subset hn), hids'⟩

omit [Field K] [LinearOrder K] [FloorRing K] in
/-- The last answer drops a batch or leaves it queued, and what is queued is on its way. -/
theorem sound_takeStatus {batch : List (BehaviorEvent K)} {status : Nat} (h : Sound randomUUID c)
    (hnone : c.flights = []) : Sound randomUUID (c.takeStatus batch status) ∧ (c.takeStatus batch status).Live := by
  unfold takeStatus
  split
  · exact ⟨sound_scheduleFlush h, live_scheduleFlush⟩
  · have hdropped : Sound randomUUID
        { c with queue := c.queue.filter fun event => event.clientEventId ∉ batch.map (·.clientEventId) } := by
      refine ⟨drawn_filter h, h.flying, ?_, h.requested, h.pending, fun hgone => ?_⟩
      · show ∀ flight ∈ c.flights, _
        rw [hnone]
        exact nofun
      · show c.queue.filter _ = []
        rw [h.gone hgone]
        rfl
    dsimp only
    split
    · next hqueue => exact ⟨hdropped, fun _ hne => absurd hqueue hne⟩
    · exact ⟨sound_scheduleFlush hdropped, live_scheduleFlush⟩

omit [Field K] [LinearOrder K] [FloorRing K] in
/-- A flush that waits for something else keeps its batch. -/
theorem sound_await {flight : Flight K} (awaiting : Awaiting) (h : Sound randomUUID c)
    (hflight : flight ∈ c.flights) :
    Sound randomUUID (c.await flight awaiting) ∧ (c.await flight awaiting).flights ≠ [] := by
  rcases h.flying with ⟨hnone, -⟩ | ⟨flight', hone, hflag⟩
  · rw [hnone] at hflight
    cases hflight
  · have hsame : flight = flight' := by
      rw [hone, List.mem_singleton] at hflight
      exact hflight
    subst hsame
    have hflights : (c.await flight awaiting).flights = [{ flight with awaiting }] := by
      show c.flights.map _ = _
      rw [hone]
      simp
    refine ⟨⟨h.drawn, Or.inr ⟨_, hflights, hflag⟩, ?_, h.requested, h.pending, h.gone⟩, ?_⟩
    · rw [hflights]
      intro f hf
      rw [List.mem_singleton.mp hf]
      exact h.captured flight hflight
    · rw [hflights]
      exact List.cons_ne_nil _ _

omit [Field K] [LinearOrder K] [FloorRing K] in
/-- What an answer can make of a client. -/
theorem resume_cases {flight : Flight K} {answer : Answer} {t : Client K}
    (h : c.resume flight answer = some t) :
    (∃ awaiting, t = c.await flight awaiting)
      ∨ t = (c.await flight .secondResponse).sendBatch flight.batch
      ∨ t = (c.settle flight).scheduleFlush
      ∨ ∃ status, t = (c.settle flight).takeStatus flight.batch status
        ∧ (retryable status = false → nonRetryable flight.awaiting answer = true) := by
  unfold resume at h
  split at h
  · next hawaiting =>
    split at h
    · exact Or.inl ⟨_, (Option.some.inj h).symm⟩
    · next hstatus =>
      refine Or.inr (Or.inr (Or.inr ⟨_, (Option.some.inj h).symm.trans (settle_takeStatus _ _ _), fun hno => ?_⟩))
      rw [hawaiting]
      simp [nonRetryable, hstatus, hno]
  · exact Or.inr (Or.inl (Option.some.inj h).symm)
  · next hawaiting =>
    refine Or.inr (Or.inr (Or.inr ⟨_, (Option.some.inj h).symm.trans (settle_takeStatus _ _ _), fun _ => ?_⟩))
    rw [hawaiting]
    rfl
  · exact Or.inr (Or.inr (Or.inl ((Option.some.inj h).symm.trans (settle_scheduleFlush _))))
  · next hawaiting =>
    refine Or.inr (Or.inr (Or.inr ⟨_, (Option.some.inj h).symm.trans (settle_takeStatus _ _ _), fun hno => ?_⟩))
    rw [hawaiting]
    simp [nonRetryable, hno]
  · exact Or.inr (Or.inr (Or.inl ((Option.some.inj h).symm.trans (settle_scheduleFlush _))))
  · exact Or.inr (Or.inr (Or.inl ((Option.some.inj h).symm.trans (settle_scheduleFlush _))))
  · cases h

omit [Field K] [LinearOrder K] [FloorRing K] in
theorem sound_resume {flight : Flight K} {answer : Answer} {t : Client K} (h : Sound randomUUID c)
    (hflight : flight ∈ c.flights) (ht : c.resume flight answer = some t) :
    Sound randomUUID t ∧ t.Live := by
  obtain ⟨hsettled, hnone⟩ := sound_settle h hflight
  rcases resume_cases ht with ⟨awaiting, rfl⟩ | rfl | rfl | ⟨status, rfl, -⟩
  · obtain ⟨hsound, hne⟩ := sound_await awaiting h hflight
    exact ⟨hsound, fun _ _ => Or.inr hne⟩
  · obtain ⟨hsound, hne⟩ := sound_await .secondResponse h hflight
    refine ⟨⟨hsound.drawn, hsound.flying, hsound.captured, ?_, hsound.pending, hsound.gone⟩,
      fun _ _ => Or.inr hne⟩
    intro request hrequest
    rcases List.mem_append.mp hrequest with hold | hnew
    · exact h.requested request hold
    · rw [List.mem_singleton.mp hnew]
      exact (h.captured flight hflight).2.1
  · exact ⟨sound_scheduleFlush hsettled, live_scheduleFlush⟩
  · exact sound_takeStatus hsettled hnone

/-! ### Every action -/

/-- What a call of the recorder can make of a client: nothing, a flush, or one more event after its key
    was noted. -/
theorem record_cases (opts : ClientOptions) (randomUUID : Nat → String) (now : Int) (c : Client K)
    (call : Call K) :
    c.record opts randomUUID now call = c ∨ c.record opts randomUUID now call = c.flush
      ∨ ∃ visibleKeys viewKeys context eventType dwellMs metadata,
        c.record opts randomUUID now call
          = enqueue opts randomUUID now { c with visibleKeys, viewKeys } context eventType dwellMs
              metadata := by
  cases call with
  | visible context viewportRatio =>
    show c.visible opts randomUUID now context viewportRatio = c ∨ _
    by_cases hkey : eventKey context none ∈ c.visibleKeys
    · exact Or.inl (if_pos hkey)
    · exact Or.inr (Or.inr ⟨_, c.viewKeys, context, .visible, _, _, if_neg hkey⟩)
  | view context trigger continuousVisibleMs visitId =>
    show c.view opts randomUUID now context trigger continuousVisibleMs visitId = c ∨ _
    by_cases hkey : eventKey context visitId ∈ c.viewKeys
    · exact Or.inl (if_pos hkey)
    · exact Or.inr (Or.inr ⟨c.visibleKeys, _, context, .view, _, _, if_neg hkey⟩)
  | click context =>
    show c.click opts randomUUID now context = c ∨ _
    by_cases hdisposed : c.disposed = true
    · exact Or.inl (if_pos hdisposed)
    · exact Or.inr (Or.inr ⟨c.visibleKeys, c.viewKeys, context, .click, _, _, if_neg hdisposed⟩)
  | dwell context dwellMs trigger visitId =>
    exact Or.inr (Or.inr ⟨c.visibleKeys, c.viewKeys, context, .dwell, _, _, rfl⟩)
  | flush => exact Or.inr (Or.inl rfl)

theorem sound_record {call : Call K} (h : Sound randomUUID c) (hlive : c.Live) :
    Sound randomUUID (c.record opts randomUUID now call) ∧ (c.record opts randomUUID now call).Live := by
  rcases record_cases opts randomUUID now c call with hsame | hflush | ⟨_, _, _, _, _, _, henqueue⟩
  · rw [hsame]
    exact ⟨h, hlive⟩
  · rw [hflush]
    exact ⟨sound_flush h, live_flush h⟩
  · rw [henqueue]
    exact ⟨sound_enqueue ⟨h.drawn, h.flying, h.captured, h.requested, h.pending, h.gone⟩, live_enqueue⟩

/-- What holds after every action. -/
theorem sound_step {a : Action K} {t : Client K} (h : Sound randomUUID c) (hlive : c.Live)
    (ht : c.step opts randomUUID a = some t) : Sound randomUUID t ∧ t.Live := by
  cases a with
  | record call now =>
    rw [← Option.some.inj ht]
    exact sound_record h hlive
  | timer handle =>
    unfold step at ht
    dsimp only at ht
    split at ht
    · rw [← Option.some.inj ht]
      have hfired : Sound randomUUID { c with timers := c.timers.fire handle, flushTimer := none } :=
        ⟨h.drawn, h.flying, h.captured, h.requested, nofun, h.gone⟩
      exact ⟨sound_flush hfired, live_flush hfired⟩
    · cases ht
  | answer id answer =>
    unfold step at ht
    dsimp only at ht
    split at ht
    · cases ht
    · next flight hfind => exact sound_resume h (List.mem_of_find?_eq_some hfind) ht
  | discardPending =>
    rw [← Option.some.inj ht]
    refine ⟨⟨⟨[], List.Pairwise.nil, nofun, rfl⟩, h.flying, ?_, h.requested, nofun, fun _ => rfl⟩, nofun⟩
    intro flight hflight
    obtain ⟨hne, hlength, -⟩ := h.captured flight hflight
    exact ⟨hne, hlength, nofun⟩

/-- What holds after every run of a new client. -/
theorem sound_run {as : List (Action K)}
    (hrun : Lib.run (Client.step opts randomUUID) {} as = some c) : Sound randomUUID c ∧ c.Live := by
  have hstart : Sound randomUUID ({} : Client K) :=
    ⟨⟨[], List.Pairwise.nil, nofun, rfl⟩, Or.inl ⟨rfl, rfl⟩, nofun, nofun, nofun, nofun⟩
  have hrule := Lib.run_invariant (P := fun c : Client K => Sound randomUUID c ∧ c.Live)
    (fun s a t hs hstep => sound_step hs.1 hs.2 hstep) ⟨hstart, fun _ hne => absurd rfl hne⟩ hrun
  exact hrule

/-! ### Queued events -/

/-- The action is an answer after which a flush drops a batch with the event. -/
def Drops (c : Client K) (a : Action K) (event : BehaviorEvent K) : Prop :=
  ∃ flight ∈ c.flights, ∃ answer, a = .answer flight.id answer
    ∧ nonRetryable flight.awaiting answer = true ∧ event ∈ flight.batch

variable {event : BehaviorEvent K}

omit [Field K] [LinearOrder K] [FloorRing K] in
/-- Where no id is drawn twice, no event is queued twice. -/
theorem Sound.nodup (h : Sound randomUUID c) {n : Nat} (hdrawn : c.drawn ≤ n)
    (hfresh : Set.InjOn randomUUID {m | m < n}) : (c.queue.map (·.clientEventId)).Nodup := by
  obtain ⟨ns, hincreasing, hbelow, hids⟩ := h.drawn
  rw [hids]
  have hnodup : ns.Nodup := hincreasing.imp fun hlt => Nat.ne_of_lt hlt
  refine List.Nodup.map_on (fun m hm m' hm' heq => ?_) hnodup
  exact hfresh ((hbelow m hm).trans_le hdrawn) ((hbelow m' hm').trans_le hdrawn) heq

omit [Field K] [LinearOrder K] [FloorRing K] in
theorem flush_queue : c.flush.queue = c.queue ∧ c.flush.drawn = c.drawn := by
  unfold flush
  split
  · exact ⟨rfl, rfl⟩
  · dsimp only
    split
    · exact ⟨rfl, rfl⟩
    · split
      · exact ⟨rfl, rfl⟩
      · exact ⟨rfl, rfl⟩

omit [Field K] [LinearOrder K] [FloorRing K] in
/-- A new event goes to the end of the queue. -/
theorem queue_enqueue {context : RecommendationContext} {eventType : EventType} {dwellMs : Option Int}
    {metadata : List (String × MetaValue K)} :
    c.queue <+: (c.enqueue opts randomUUID now context eventType dwellMs metadata).queue
      ∧ c.drawn ≤ (c.enqueue opts randomUUID now context eventType dwellMs metadata).drawn := by
  unfold enqueue
  split
  · exact ⟨List.prefix_rfl, le_rfl⟩
  · obtain ⟨hqueue, -, -, -, hdrawn⟩ := scheduleFlush_same (c := { c with
      queue := c.queue ++ [⟨randomUUID c.drawn, context.postId, context.impressionId, opts.sessionId,
        eventType, opts.labelVersion, dwellMs, metadata, now⟩], drawn := c.drawn + 1 })
    refine ⟨?_, ?_⟩
    · show c.queue <+: _
      rw [hqueue]
      exact List.prefix_append _ _
    · show c.drawn ≤ _
      rw [hdrawn]
      exact Nat.le_succ _

/-- A call of the recorder only adds to the queue. -/
theorem queue_record (opts : ClientOptions) (randomUUID : Nat → String) (now : Int) (c : Client K)
    (call : Call K) : c.queue <+: (c.record opts randomUUID now call).queue
      ∧ c.drawn ≤ (c.record opts randomUUID now call).drawn := by
  rcases record_cases opts randomUUID now c call with
    hsame | hflush | ⟨visibleKeys, viewKeys, _, _, _, _, henqueue⟩
  · rw [hsame]
    exact ⟨List.prefix_rfl, le_rfl⟩
  · rw [hflush, flush_queue.1, flush_queue.2]
    exact ⟨List.prefix_rfl, le_rfl⟩
  · rw [henqueue]
    exact queue_enqueue (c := { c with visibleKeys, viewKeys })

omit [Field K] [LinearOrder K] [FloorRing K] in
/-- What the last answer leaves queued. -/
theorem queue_takeStatus {batch : List (BehaviorEvent K)} {status : Nat} :
    (c.takeStatus batch status).queue = (if retryable status then c.queue
        else c.queue.filter fun event => event.clientEventId ∉ batch.map (·.clientEventId))
      ∧ (c.takeStatus batch status).drawn = c.drawn := by
  unfold takeStatus
  split
  · exact ⟨scheduleFlush_same.1, scheduleFlush_same.2.2.2.2⟩
  · dsimp only
    split
    · exact ⟨rfl, rfl⟩
    · exact ⟨scheduleFlush_same.1, scheduleFlush_same.2.2.2.2⟩

omit [Field K] [LinearOrder K] [FloorRing K] in
/-- An event stays queued unless its own batch is dropped. -/
theorem queued_resume {flight : Flight K} {answer : Answer} {t : Client K} (h : Sound randomUUID c)
    (hflight : flight ∈ c.flights) (hnodup : (c.queue.map (·.clientEventId)).Nodup)
    (ht : c.resume flight answer = some t) (hevent : event ∈ c.queue) :
    event ∈ t.queue ∨ nonRetryable flight.awaiting answer = true ∧ event ∈ flight.batch := by
  rcases resume_cases ht with ⟨awaiting, rfl⟩ | rfl | rfl | ⟨status, rfl, hdrop⟩
  · exact Or.inl hevent
  · exact Or.inl hevent
  · left
    rw [scheduleFlush_same.1]
    exact hevent
  · rw [queue_takeStatus.1]
    split
    · exact Or.inl hevent
    · next hno =>
      by_cases hid : event.clientEventId ∈ flight.batch.map (·.clientEventId)
      · -- the event with this id that was captured is queued, so that it is this one
        obtain ⟨captured, hcaptured, heq⟩ := List.mem_map.mp hid
        have hlive : c.disposed = false := by
          rw [Bool.eq_false_iff]
          intro hgone
          rw [h.gone hgone] at hevent
          cases hevent
        have hqueued := (h.captured flight hflight).2.2 hlive captured hcaptured
        have hsame : captured = event := List.inj_on_of_nodup_map hnodup hqueued hevent heq
        exact Or.inr ⟨hdrop (Bool.not_eq_true _ ▸ hno), hsame ▸ hcaptured⟩
      · exact Or.inl (List.mem_filter.mpr ⟨hevent, by simpa using hid⟩)

/-- An action leaves an event queued, unless it is disposal or drops the event; and it draws ids
    forward. -/
theorem queued_step (event : BehaviorEvent K) {a : Action K} {t : Client K} (h : Sound randomUUID c)
    (ht : c.step opts randomUUID a = some t) :
    c.drawn ≤ t.drawn ∧ ((c.queue.map (·.clientEventId)).Nodup → a ≠ .discardPending →
      ¬ Drops c a event → event ∈ c.queue → event ∈ t.queue) := by
  cases a with
  | record call now =>
    rw [← Option.some.inj ht]
    obtain ⟨hqueue, hdrawn⟩ := queue_record opts randomUUID now c call
    exact ⟨hdrawn, fun _ _ _ hevent => hqueue.subset hevent⟩
  | timer handle =>
    unfold step at ht
    dsimp only at ht
    split at ht
    · rw [← Option.some.inj ht, flush_queue.1, flush_queue.2]
      exact ⟨le_rfl, fun _ _ _ hevent => hevent⟩
    · cases ht
  | answer id answer =>
    unfold step at ht
    dsimp only at ht
    split at ht
    · cases ht
    · next flight hfind =>
      have hflight : flight ∈ c.flights := List.mem_of_find?_eq_some hfind
      have hid : flight.id = id := by simpa using List.find?_some hfind
      refine ⟨?_, fun hnodup _ hkeep hevent => ?_⟩
      · rcases resume_cases ht with ⟨awaiting, rfl⟩ | rfl | rfl | ⟨status, rfl, -⟩
        · exact le_rfl
        · exact le_rfl
        · rw [scheduleFlush_same.2.2.2.2]
          exact le_rfl
        · rw [queue_takeStatus.2]
          exact le_rfl
      · rcases queued_resume h hflight hnodup ht hevent with hqueued | ⟨hdrop, hcaptured⟩
        · exact hqueued
        · exact absurd ⟨flight, hflight, answer, by rw [hid], hdrop, hcaptured⟩ hkeep
  | discardPending =>
    rw [← Option.some.inj ht]
    exact ⟨le_rfl, fun _ hdiscard => absurd rfl hdiscard⟩

/-- **The queue of a client**, after every run in which no id is drawn twice: no event is queued twice,
    no batch is too long, one flush runs at most, a queue that is not empty has a pending timeout or a
    flush that runs, and an event that is queued stays until its batch is dropped or the client is
    disposed of. -/
theorem keeps_events (opts : ClientOptions) (randomUUID : Nat → String) {as : List (Action K)}
    {c : Client K} (hrun : Lib.run (step opts randomUUID) {} as = some c)
    (hfresh : Set.InjOn randomUUID {n | n < c.drawn}) :
    (c.queue.map (·.clientEventId)).Nodup
      ∧ (∀ request ∈ c.requests, request.batch.length ≤ maxBatchSize)
      ∧ c.flights.length ≤ 1
      ∧ (c.queue ≠ [] → c.disposed = false →
        (∃ handle ∈ c.timers.pending, c.flushTimer = some handle) ∨ c.flights ≠ [])
      ∧ ∀ before after b, as = before ++ after →
        Lib.run (step opts randomUUID) {} before = some b → ∀ event ∈ b.queue,
        Lib.Along (step opts randomUUID) (fun s a => a ≠ .discardPending ∧ ¬ Drops s a event) b after →
        event ∈ c.queue := by
  obtain ⟨hsound, hlive⟩ := sound_run hrun
  refine ⟨hsound.nodup le_rfl hfresh, hsound.requested, ?_, ?_, ?_⟩
  · rcases hsound.flying with ⟨hnone, -⟩ | ⟨flight, hone, -⟩
    · simp [hnone]
    · simp [hone]
  · intro hne hdisposed
    rcases hlive hdisposed hne with htimer | hflight
    · obtain ⟨handle, hhandle⟩ := Option.isSome_iff_exists.mp htimer
      exact Or.inl ⟨handle, hsound.pending handle hhandle, hhandle⟩
    · exact Or.inr hflight
  · rintro before after b rfl hbefore event hevent halong
    obtain ⟨b', hb', hafter⟩ := Lib.run_append.mp hrun
    rw [hbefore, Option.some.injEq] at hb'
    subst hb'
    -- by induction on the rest of the run; ids drawn later are among the fresh ones
    have hkept : (Sound randomUUID c ∧ c.Live) ∧ (c.drawn ≤ c.drawn → event ∈ c.queue) := by
      refine Lib.run_invariant_along
        (P := fun s => (Sound randomUUID s ∧ s.Live) ∧ (s.drawn ≤ c.drawn → event ∈ s.queue))
        ?_ ⟨sound_run hbefore, fun _ => hevent⟩ hafter halong
      rintro s a t ⟨⟨hs, hslive⟩, hqueued⟩ ⟨hdiscard, hkeep⟩ hstep
      refine ⟨sound_step hs hslive hstep, fun ht => ?_⟩
      obtain ⟨hforward, hstays⟩ := queued_step event hs hstep
      have hdrawn : s.drawn ≤ c.drawn := hforward.trans ht
      exact hstays (hs.nodup hdrawn hfresh) hdiscard hkeep (hqueued hdrawn)
    exact hkept.2 le_rfl

/-- Two clicks, a flush that the server cannot take, and another one that needs a new session. -/
def retried : List (Action ℚ) :=
  [.record (.click ⟨"post", none, none, none, none⟩) 0, .record (.click ⟨"other", none, none, none, none⟩) 5,
    .record .flush 6, .answer 0 (.status 503), .timer 2, .answer 1 (.status 401),
    .answer 1 (.refreshed true)]

theorem keeps_retried_events :
    ∃ c : Client ℚ, Lib.run (step ⟨none, "session", .v2⟩ Python.uuidText) {} retried = some c
      ∧ c.queue.length = 2 ∧ c.requests.length = 3 ∧ (c.queue.map (·.clientEventId)).Nodup := by
  have hrun : ∃ c : Client ℚ, Lib.run (step ⟨none, "session", .v2⟩ Python.uuidText) {} retried = some c
      ∧ c.queue.length = 2 ∧ c.requests.length = 3 ∧ c.drawn = 2 := ⟨_, rfl, rfl, rfl, rfl⟩
  obtain ⟨c, hrun, hqueue, hrequests, hdrawn⟩ := hrun
  refine ⟨c, hrun, hqueue, hrequests, (keeps_events _ _ hrun ?_).1⟩
  rw [hdrawn]
  rintro n (hn : n < 2) m (hm : m < 2) heq
  exact Python.uuidText_injective (by omega) (by omega) heq

end Client

end Oecophylla.Frontend.Telemetry
