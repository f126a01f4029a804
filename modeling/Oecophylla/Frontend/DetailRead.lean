import Mathlib.Tactic.Ring
import Oecophylla.Frontend.Recorder

namespace Oecophylla.Frontend.DetailRead

/-!
# Reading a post — `detailReadTracker.ts`

The tracker measures how long the detail page of a post is read: while the article intersects the
viewport of a page that is shown.  Every event comes with the value of the clock; the handlers are
those of the source, in its order.

The length of a segment is a difference of two clock values, and the time of reading a sum of such
lengths; both are rounded as the page rounds (`Arithmetic`).  So a segment can reach the threshold, or a
time the next half of a millisecond, by the rounding alone (`rounded_up`).

* `step` — one event: a callback of the observer, a change of the page, a timeout, or `destroy`;
* `Watched` — the same events as an observer with a stop watch sees them, who writes down the length of
  each segment when it ends;
* `Agrees` — what both have in common after every event;
* `measures_reading` — one view at most, after one long segment; growing dwell times that do not
  exceed the time of reading; nothing after `destroy`.
-/

variable {K : Type*} [Field K] [LinearOrder K] [FloorRing K] [Arithmetic K]

/-- The options of a tracker that has started, with the context that the client returned. -/
structure Options (K : Type*) where
  context : RecommendationContext
  visitId : Option String
  qualifiedReadMs : K

/-- The variables of `startTracking`, the state of the page, and the calls so far. -/
structure Tracking (K : Type*) where
  intersectsViewport : Bool
  pageShown : Bool
  segmentStartedAt : Option K
  accumulatedMs : K
  lastDwellMs : Int
  viewSent : Bool
  destroyed : Bool
  viewTimer : Option Nat
  timers : Timers
  /-- `document.visibilityState === 'visible'`. -/
  documentVisible : Bool
  calls : List (Call K)

/-- What happens to a tracker. -/
inductive Event (K : Type*) where
  | intersect (entries : List (Entry K))
  | visibilitychange (visible : Bool)
  | pagehide
  | pageshow
  | timer (handle : Nat)
  | destroy
  deriving DecidableEq, Repr

/-- A callback with one entry. -/
def Event.Single : Event K → Prop
  | .intersect entries => entries.length = 1
  | _ => True

instance : DecidablePred (Event.Single (K := K))
  | .intersect _ => inferInstanceAs (Decidable (_ = _))
  | .visibilitychange _ | .pagehide | .pageshow | .timer _ | .destroy => isTrue trivial

namespace Tracking

/-- The tracker when it has started on a page that is visible or not. -/
def start (documentVisible : Bool) : Tracking K where
  intersectsViewport := false
  pageShown := true
  segmentStartedAt := none
  accumulatedMs := 0
  lastDwellMs := 0
  viewSent := false
  destroyed := false
  viewTimer := none
  timers := {}
  documentVisible := documentVisible
  calls := []

variable (opts : Options K) (now : K) (s : Tracking K)

/-- A call on the client. -/
def call (c : Call K) : Tracking K := { s with calls := s.calls ++ [c] }

/-- `clearViewTimer()`. -/
def clearViewTimer : Tracking K := { s with timers := s.timers.clear s.viewTimer, viewTimer := none }

/-- `measuredMs()`; a sum with zero is exact. -/
def measuredMs : K :=
  match s.segmentStartedAt with
  | none => s.accumulatedMs
  | some startedAt => rounded (s.accumulatedMs + max 0 (rounded (now - startedAt)))

/-- `sendQualifiedView()`. -/
def sendQualifiedView : Tracking K :=
  match s.segmentStartedAt with
  | none => s
  | some startedAt =>
    if s.viewSent then s
    else
      let segmentMs := max 0 (rounded (now - startedAt))
      if segmentMs < opts.qualifiedReadMs then s
      else
        let sent := { s with viewSent := true }
        (sent.call (.view opts.context .detail (clampNumber segmentMs : Int) opts.visitId)).clearViewTimer

/-- `scheduleQualifiedView()`; a timeout may fire later than its delay. -/
def scheduleQualifiedView : Tracking K :=
  if s.viewSent = true ∨ s.segmentStartedAt = none then s
  else { s with viewTimer := some s.timers.next, timers := s.timers.set }

/-- `sendDwell(trigger)`. -/
def sendDwell (trigger : DwellTrigger) : Tracking K :=
  let totalMs := clampNumber s.accumulatedMs
  if totalMs ≤ s.lastDwellMs then s
  else { s with lastDwellMs := totalMs }.call (.dwell opts.context (totalMs : Int) trigger opts.visitId)

/-- `stopReading(trigger)`. -/
def stopReading (trigger : DwellTrigger) : Tracking K :=
  if s.segmentStartedAt = none then s
  else
    let sent := s.sendQualifiedView opts now
    let stopped := { sent with accumulatedMs := sent.measuredMs now, segmentStartedAt := none }
    stopped.clearViewTimer.sendDwell opts trigger

/-- `const shouldRead` of `syncReading`. -/
def shouldRead : Prop :=
  s.intersectsViewport = true ∧ s.pageShown = true ∧ s.documentVisible = true

instance (s : Tracking K) : Decidable s.shouldRead := inferInstanceAs (Decidable (_ ∧ _))

/-- `syncReading(trigger)`. -/
def syncReading (trigger : DwellTrigger) : Tracking K :=
  if ¬ s.shouldRead then s.stopReading opts now trigger
  else if s.segmentStartedAt = none then
    { s with segmentStartedAt := some now }.scheduleQualifiedView
  else s

/-- `entry.isIntersecting && entry.intersectionRatio > 0`. -/
def inViewport (entry : Entry K) : Bool := entry.isIntersecting && decide (0 < entry.intersectionRatio)

/-- The callback of the observer.  It watches the element alone, so that the entry which it looks for
    is the first one. -/
def handleIntersection (entries : List (Entry K)) : Tracking K :=
  match entries.head? with
  | none => s
  | some entry => { s with intersectsViewport := inViewport entry }.syncReading opts now .viewportExit

/-- `handleVisibilityChange()`. -/
def handleVisibilityChange : Tracking K :=
  let synced := s.syncReading opts now .pageHidden
  if synced.documentVisible = false then synced.call .flush else synced

/-- `handlePageHide()`. -/
def handlePageHide : Tracking K :=
  ({ s with pageShown := false }.syncReading opts now .pageHidden).call .flush

/-- `handlePageShow()`. -/
def handlePageShow : Tracking K := { s with pageShown := true }.syncReading opts now .pageHidden

/-- The callback of the timeout. -/
def handleTimer : Tracking K :=
  let fired := { s with viewTimer := none }
  if fired.segmentStartedAt = none ∨ fired.documentVisible = false ∨ fired.pageShown = false then fired
  else
    let sent := fired.sendQualifiedView opts now
    if sent.viewSent then sent else sent.scheduleQualifiedView

/-- `destroy()`; the observer is disconnected and the listeners are removed. -/
def destroy : Tracking K :=
  if s.destroyed then s
  else (({ s with destroyed := true }.stopReading opts now .destroy).clearViewTimer).call .flush

end Tracking

/-- One event at a time.  A disconnected observer and a removed listener are not called, and only a
    timeout that is pending fires; the page goes on without them. -/
def step (opts : Options K) (s : Tracking K) (e : K × Event K) : Tracking K :=
  match e with
  | (now, .intersect entries) => if s.destroyed then s else s.handleIntersection opts now entries
  | (now, .visibilitychange visible) =>
    let changed := { s with documentVisible := visible }
    if s.destroyed then changed else changed.handleVisibilityChange opts now
  | (now, .pagehide) => if s.destroyed then s else s.handlePageHide opts now
  | (now, .pageshow) => if s.destroyed then s else s.handlePageShow opts now
  | (now, .timer handle) =>
    if handle ∈ s.timers.pending then { s with timers := s.timers.fire handle }.handleTimer opts now
    else s
  | (now, .destroy) => s.destroy opts now

/-- The tracker after a sequence of events. -/
def run (opts : Options K) (s : Tracking K) (events : List (K × Event K)) : Tracking K :=
  events.foldl (step opts) s

/-! ### What a stop watch shows -/

/-- Whether the article is read, since when and for how long, by the events alone. -/
structure Watched (K : Type*) where
  intersects : Bool
  shown : Bool
  visible : Bool
  ended : Bool
  /-- When the present segment began, or the last event where there is none. -/
  since : K
  last : K
  /-- The lengths of the segments that are over, added up. -/
  finished : K

namespace Watched

/-- The article can be read: it intersects the viewport of a page that is shown. -/
def reading (w : Watched K) : Bool := w.intersects && w.shown && w.visible && !w.ended

/-- What an event changes; the latest entry counts. -/
def change (w : Watched K) : Event K → Watched K
  | .intersect entries =>
    match entries.getLast? with
    | none => w
    | some entry => { w with intersects := Tracking.inViewport entry }
  | .visibilitychange visible => { w with visible := visible }
  | .pagehide => { w with shown := false }
  | .pageshow => { w with shown := true }
  | .timer _ => w
  | .destroy => { w with ended := true }

/-- What is written down at `now`: with the present segment, if it is over. -/
def writtenDown (w : Watched K) (now : K) (ended : Bool) : K :=
  if w.reading && ended then rounded (w.finished + rounded (now - w.since)) else w.finished

/-- One event. -/
def next (w : Watched K) (e : K × Event K) : Watched K :=
  { w.change e.2 with
    since := if w.reading then w.since else e.1
    last := e.1
    finished := w.writtenDown e.1 !(w.change e.2).reading }

/-- The time of reading up to the last event, with the present segment. -/
def total (w : Watched K) : K := w.writtenDown w.last true

/-- The watch when the tracker starts. -/
def start (documentVisible : Bool) (now : K) : Watched K where
  intersects := false
  shown := true
  visible := documentVisible
  ended := false
  since := now
  last := now
  finished := 0

/-- The watch after a sequence of events. -/
def run (w : Watched K) (events : List (K × Event K)) : Watched K := events.foldl next w

end Watched

/-! ### The calls -/

/-- The durations of the views among the calls. -/
def views (calls : List (Call K)) : List K := calls.filterMap fun
  | .view _ _ continuousVisibleMs _ => some continuousVisibleMs
  | _ => none

/-- The dwell times among the calls. -/
def dwells (calls : List (Call K)) : List K := calls.filterMap fun
  | .dwell _ dwellMs _ _ => some dwellMs
  | _ => none

omit [Field K] [LinearOrder K] [FloorRing K] in
@[simp] theorem views_append (calls calls' : List (Call K)) :
    views (calls ++ calls') = views calls ++ views calls' := List.filterMap_append

omit [Field K] [LinearOrder K] [FloorRing K] in
@[simp] theorem dwells_append (calls calls' : List (Call K)) :
    dwells (calls ++ calls') = dwells calls ++ dwells calls' := List.filterMap_append

/-- One view at most, and dwell times that grow up to the last one. -/
structure Tidy (calls : List (Call K)) (viewSent : Bool) (lastDwellMs : Int) : Prop where
  oneView : (views calls).length = if viewSent then 1 else 0
  growing : (dwells calls).Pairwise (· < ·)
  upTo : ∀ d ∈ dwells calls, d ≤ lastDwellMs

/-- What a handler may do to the calls of a tracker: a dwell time is the time that is accumulated,
    and a view is sent in a segment that has reached the threshold. -/
structure Handles (opts : Options K) (now : K) (s t : Tracking K) : Prop where
  last : t.lastDwellMs = s.lastDwellMs ∨ t.lastDwellMs = clampNumber t.accumulatedMs
  tidy : Tidy s.calls s.viewSent s.lastDwellMs → Tidy t.calls t.viewSent t.lastDwellMs
  viewed : views t.calls = views s.calls
    ∨ ∃ startedAt, s.segmentStartedAt = some startedAt ∧ opts.qualifiedReadMs ≤ max 0 (rounded (now - startedAt))

namespace Tracking

variable {opts : Options K} {now : K} {s : Tracking K} {trigger : DwellTrigger}

/-! ### What the helpers leave as it is -/

/-- The flags of the tracker and of the page. -/
def flags (s : Tracking K) : Bool × Bool × Bool × Bool :=
  (s.intersectsViewport, s.pageShown, s.documentVisible, s.destroyed)

/-- The segment and the time accumulated before it. -/
def clock (s : Tracking K) : Option K × K := (s.segmentStartedAt, s.accumulatedMs)

omit [Field K] [LinearOrder K] [FloorRing K] in
@[simp] theorem flags_call (c : Call K) : (s.call c).flags = s.flags := rfl

omit [Field K] [LinearOrder K] [FloorRing K] in
@[simp] theorem clock_call (c : Call K) : (s.call c).clock = s.clock := rfl

omit [Field K] [LinearOrder K] [FloorRing K] in
@[simp] theorem flags_clearViewTimer : s.clearViewTimer.flags = s.flags := rfl

omit [Field K] [LinearOrder K] [FloorRing K] in
@[simp] theorem clock_clearViewTimer : s.clearViewTimer.clock = s.clock := rfl

@[simp] theorem flags_sendQualifiedView : (s.sendQualifiedView opts now).flags = s.flags := by
  unfold sendQualifiedView
  split
  · rfl
  · split
    · rfl
    · dsimp only
      split
      · rfl
      · rfl

@[simp] theorem clock_sendQualifiedView : (s.sendQualifiedView opts now).clock = s.clock := by
  unfold sendQualifiedView
  split
  · rfl
  · split
    · rfl
    · dsimp only
      split
      · rfl
      · rfl

omit [Field K] [LinearOrder K] [FloorRing K] in
@[simp] theorem flags_scheduleQualifiedView : s.scheduleQualifiedView.flags = s.flags := by
  unfold scheduleQualifiedView
  split
  · rfl
  · rfl

omit [Field K] [LinearOrder K] [FloorRing K] in
@[simp] theorem clock_scheduleQualifiedView : s.scheduleQualifiedView.clock = s.clock := by
  unfold scheduleQualifiedView
  split
  · rfl
  · rfl

@[simp] theorem flags_sendDwell : (s.sendDwell opts trigger).flags = s.flags := by
  unfold sendDwell
  dsimp only
  split
  · rfl
  · rfl

@[simp] theorem clock_sendDwell : (s.sendDwell opts trigger).clock = s.clock := by
  unfold sendDwell
  dsimp only
  split
  · rfl
  · rfl

omit [FloorRing K] in
/-- The measured time depends on the segment and the accumulated time. -/
theorem measuredMs_congr {t : Tracking K} (h : t.clock = s.clock) :
    t.measuredMs now = s.measuredMs now := by
  obtain ⟨hsegment, haccumulated⟩ := Prod.mk.inj h
  unfold measuredMs
  rw [hsegment, haccumulated]

omit [FloorRing K] in
theorem measuredMs_of_none (h : s.segmentStartedAt = none) :
    s.measuredMs now = s.accumulatedMs := by
  unfold measuredMs
  rw [h]

@[simp] theorem flags_stopReading : (s.stopReading opts now trigger).flags = s.flags := by
  unfold stopReading
  split
  · rfl
  · rw [flags_sendDwell, flags_clearViewTimer]
    exact flags_sendQualifiedView

/-- A stopped segment is added to the accumulated time. -/
theorem clock_stopReading : (s.stopReading opts now trigger).clock = (none, s.measuredMs now) := by
  unfold stopReading
  split
  · next hnone => rw [clock, hnone, measuredMs_of_none hnone]
  · rw [clock_sendDwell, clock_clearViewTimer]
    show (none, (s.sendQualifiedView opts now).measuredMs now) = _
    rw [measuredMs_congr clock_sendQualifiedView]

@[simp] theorem flags_syncReading : (s.syncReading opts now trigger).flags = s.flags := by
  unfold syncReading
  split
  · exact flags_stopReading
  · split
    · exact flags_scheduleQualifiedView
    · rfl

/-- What `syncReading` makes of the segment. -/
theorem clock_syncReading : (s.syncReading opts now trigger).clock
    = if s.shouldRead then (some (s.segmentStartedAt.getD now), s.accumulatedMs)
      else (none, s.measuredMs now) := by
  unfold syncReading
  by_cases hread : s.shouldRead
  · rw [if_neg (not_not_intro hread), if_pos hread]
    cases hsegment : s.segmentStartedAt with
    | none =>
      rw [if_pos rfl, clock_scheduleQualifiedView]
      rfl
    | some startedAt =>
      rw [if_neg nofun, clock, hsegment]
      rfl
  · rw [if_pos hread, if_neg hread]
    exact clock_stopReading

/-! ### What the helpers call -/

@[simp] theorem lastDwellMs_sendQualifiedView :
    (s.sendQualifiedView opts now).lastDwellMs = s.lastDwellMs := by
  unfold sendQualifiedView
  split
  · rfl
  · split
    · rfl
    · dsimp only
      split
      · rfl
      · rfl

/-- A view is sent when none has been, in a segment that has reached the threshold. -/
theorem sendQualifiedView_cases :
    s.sendQualifiedView opts now = s
      ∨ ∃ startedAt, s.segmentStartedAt = some startedAt ∧ s.viewSent = false
        ∧ opts.qualifiedReadMs ≤ max 0 (rounded (now - startedAt))
        ∧ s.sendQualifiedView opts now
          = ({ s with viewSent := true }.call (.view opts.context .detail
              (clampNumber (max 0 (rounded (now - startedAt))) : Int) opts.visitId)).clearViewTimer := by
  unfold sendQualifiedView
  cases hsegment : s.segmentStartedAt with
  | none => exact Or.inl rfl
  | some startedAt =>
    by_cases hsent : s.viewSent = true
    · exact Or.inl (if_pos hsent)
    · by_cases hshort : max 0 (rounded (now - startedAt)) < opts.qualifiedReadMs
      · refine Or.inl ?_
        simp [hsent, hshort]
      · refine Or.inr ⟨startedAt, rfl, Bool.not_eq_true _ ▸ hsent, not_lt.mp hshort, ?_⟩
        simp [hsent, hshort]

theorem handles_sendQualifiedView : Handles opts now s (s.sendQualifiedView opts now) := by
  refine ⟨Or.inl lastDwellMs_sendQualifiedView, fun h => ?_, ?_⟩
  · rcases s.sendQualifiedView_cases with hsame | ⟨startedAt, -, hsent, -, hview⟩
    · rwa [hsame]
    · rw [hview]
      have hnone := h.oneView
      rw [hsent] at hnone
      have hviews : views (s.calls ++ [.view opts.context .detail
          (clampNumber (max 0 (rounded (now - startedAt))) : Int) opts.visitId])
            = views s.calls ++ [((clampNumber (max 0 (rounded (now - startedAt))) : Int) : K)] :=
        views_append _ _
      have hdwells : dwells (s.calls ++ [.view opts.context .detail
          (clampNumber (max 0 (rounded (now - startedAt))) : Int) opts.visitId]) = dwells s.calls :=
        (dwells_append _ _).trans (List.append_nil _)
      refine ⟨?_, ?_, ?_⟩
      · show (views (s.calls ++ [_])).length = 1
        rw [hviews, List.length_append, hnone]
        rfl
      · show (dwells (s.calls ++ [_])).Pairwise (· < ·)
        rw [hdwells]
        exact h.growing
      · show ∀ d ∈ dwells (s.calls ++ [_]), d ≤ (s.lastDwellMs : K)
        rw [hdwells]
        exact h.upTo
  · rcases s.sendQualifiedView_cases with hsame | ⟨startedAt, hsegment, -, hlong, -⟩
    · exact Or.inl (by rw [hsame])
    · exact Or.inr ⟨startedAt, hsegment, hlong⟩

/-- A dwell time is sent when it is longer than the last one. -/
theorem sendDwell_cases :
    s.sendDwell opts trigger = s
      ∨ s.lastDwellMs < clampNumber s.accumulatedMs
        ∧ s.sendDwell opts trigger
          = { s with lastDwellMs := clampNumber s.accumulatedMs }.call
              (.dwell opts.context (clampNumber s.accumulatedMs : Int) trigger opts.visitId) := by
  unfold sendDwell
  by_cases hle : clampNumber s.accumulatedMs ≤ s.lastDwellMs
  · exact Or.inl (if_pos hle)
  · exact Or.inr ⟨not_le.mp hle, if_neg hle⟩

end Tracking

section Order

variable [IsStrictOrderedRing K] {opts : Options K} {now : K} {s t : Tracking K}
  {trigger : DwellTrigger}

omit [IsStrictOrderedRing K] in
/-- A call that is neither a view nor a dwell time. -/
theorem Handles.flush (h : Handles opts now s t) : Handles opts now s (t.call .flush) := by
  have hviews : views (t.calls ++ [.flush]) = views t.calls :=
    (views_append _ _).trans (List.append_nil _)
  have hdwells : dwells (t.calls ++ [.flush]) = dwells t.calls :=
    (dwells_append _ _).trans (List.append_nil _)
  refine ⟨h.last, fun htidy => ?_, ?_⟩
  · obtain ⟨hone, hgrowing, hupTo⟩ := h.tidy htidy
    exact ⟨by rwa [← hviews] at hone, by rwa [← hdwells] at hgrowing, by rwa [← hdwells] at hupTo⟩
  · show views (t.calls ++ [.flush]) = _ ∨ _
    rw [hviews]
    exact h.viewed

omit [IsStrictOrderedRing K] in
/-- Nothing is called. -/
theorem Handles.of_calls (hcalls : t.calls = s.calls) (hlast : t.lastDwellMs = s.lastDwellMs)
    (hsent : t.viewSent = s.viewSent) : Handles opts now s t :=
  ⟨Or.inl hlast, fun h => by rwa [hcalls, hlast, hsent], Or.inl (by rw [hcalls])⟩

theorem handles_sendDwell : Handles opts now s (s.sendDwell opts trigger) := by
  rcases s.sendDwell_cases with hsame | ⟨hlt, hsend⟩
  · rw [hsame]
    exact .of_calls rfl rfl rfl
  · have hcast : (s.lastDwellMs : K) < (clampNumber s.accumulatedMs : Int) := Int.cast_lt.mpr hlt
    have hviews : views (s.calls ++ [.dwell opts.context (clampNumber s.accumulatedMs : Int)
        trigger opts.visitId]) = views s.calls := (views_append _ _).trans (List.append_nil _)
    have hdwells : dwells (s.calls ++ [.dwell opts.context (clampNumber s.accumulatedMs : Int)
        trigger opts.visitId]) = dwells s.calls ++ [((clampNumber s.accumulatedMs : Int) : K)] :=
      dwells_append _ _
    rw [hsend]
    refine ⟨Or.inr rfl, fun h => ⟨?_, ?_, ?_⟩, Or.inl hviews⟩
    · show (views (s.calls ++ [_])).length = _
      rw [hviews]
      exact h.oneView
    · show (dwells (s.calls ++ [_])).Pairwise (· < ·)
      rw [hdwells, List.pairwise_append]
      refine ⟨h.growing, List.pairwise_singleton _ _, fun d hd d' hd' => ?_⟩
      rw [List.mem_singleton.mp hd']
      exact (h.upTo d hd).trans_lt hcast
    · show ∀ d ∈ dwells (s.calls ++ [_]), d ≤ ((clampNumber s.accumulatedMs : Int) : K)
      intro d hd
      rw [hdwells, List.mem_append] at hd
      rcases hd with hd | hd
      · exact (h.upTo d hd).trans hcast.le
      · exact (List.mem_singleton.mp hd).le

theorem handles_stopReading : Handles opts now s (s.stopReading opts now trigger) := by
  unfold Tracking.stopReading
  split
  · exact .of_calls rfl rfl rfl
  · -- the view, then the dwell time
    have hview : Handles opts now s (s.sendQualifiedView opts now) :=
      Tracking.handles_sendQualifiedView
    set sent := s.sendQualifiedView opts now
    set stopped := ({ sent with
      accumulatedMs := sent.measuredMs now, segmentStartedAt := none } : Tracking K).clearViewTimer
    have hdwell : Handles opts now stopped (stopped.sendDwell opts trigger) := handles_sendDwell
    refine ⟨?_, fun h => hdwell.tidy (hview.tidy h), ?_⟩
    · rcases hdwell.last with hlast | hlast
      · exact Or.inl (hlast.trans Tracking.lastDwellMs_sendQualifiedView)
      · exact Or.inr hlast
    · rcases hdwell.viewed with hviews | ⟨startedAt, hnone, -⟩
      · rw [hviews]
        exact hview.viewed
      · cases hnone

theorem handles_syncReading : Handles opts now s (s.syncReading opts now trigger) := by
  unfold Tracking.syncReading
  split
  · exact handles_stopReading
  · split
    · unfold Tracking.scheduleQualifiedView
      split
      · exact .of_calls rfl rfl rfl
      · exact .of_calls rfl rfl rfl
    · exact .of_calls rfl rfl rfl

omit [IsStrictOrderedRing K] in
/-- Only the calls and the segment of the state before count. -/
theorem Handles.of_same {s' : Tracking K} (h : Handles opts now s' t) (hcalls : s'.calls = s.calls)
    (hlast : s'.lastDwellMs = s.lastDwellMs) (hsent : s'.viewSent = s.viewSent)
    (hsegment : s'.segmentStartedAt = s.segmentStartedAt) : Handles opts now s t :=
  ⟨hlast ▸ h.last, fun htidy => h.tidy (by rwa [hcalls, hlast, hsent]), by
    rw [← hcalls, ← hsegment]
    exact h.viewed⟩

/-- What one event may call. -/
theorem handles_step (opts : Options K) (s : Tracking K) (e : K × Event K) :
    Handles opts e.1 s (step opts s e) := by
  obtain ⟨now, e⟩ := e
  cases e with
  | intersect entries =>
    show Handles opts now s (if s.destroyed then s else s.handleIntersection opts now entries)
    split
    · exact .of_calls rfl rfl rfl
    · unfold Tracking.handleIntersection
      split
      · exact .of_calls rfl rfl rfl
      · exact handles_syncReading.of_same rfl rfl rfl rfl
  | visibilitychange visible =>
    show Handles opts now s (if s.destroyed then { s with documentVisible := visible }
      else ({ s with documentVisible := visible } : Tracking K).handleVisibilityChange opts now)
    split
    · exact .of_calls rfl rfl rfl
    · have hsync : Handles opts now s
          (({ s with documentVisible := visible } : Tracking K).syncReading opts now .pageHidden) :=
        handles_syncReading.of_same rfl rfl rfl rfl
      unfold Tracking.handleVisibilityChange
      dsimp only
      split
      · exact hsync.flush
      · exact hsync
  | pagehide =>
    show Handles opts now s (if s.destroyed then s else s.handlePageHide opts now)
    split
    · exact .of_calls rfl rfl rfl
    · have hsync : Handles opts now s
          (({ s with pageShown := false } : Tracking K).syncReading opts now .pageHidden) :=
        handles_syncReading.of_same rfl rfl rfl rfl
      exact hsync.flush
  | pageshow =>
    show Handles opts now s (if s.destroyed then s else s.handlePageShow opts now)
    split
    · exact .of_calls rfl rfl rfl
    · have hsync : Handles opts now s
          (({ s with pageShown := true } : Tracking K).syncReading opts now .pageHidden) :=
        handles_syncReading.of_same rfl rfl rfl rfl
      exact hsync
  | timer handle =>
    show Handles opts now s (if handle ∈ s.timers.pending then
      ({ s with timers := s.timers.fire handle } : Tracking K).handleTimer opts now else s)
    split
    · unfold Tracking.handleTimer
      dsimp only
      split
      · exact .of_calls rfl rfl rfl
      · -- a view, or the timeout is set once more
        have hview : Handles opts now s (({ s with
            timers := s.timers.fire handle, viewTimer := none } : Tracking K).sendQualifiedView opts now) :=
          Tracking.handles_sendQualifiedView.of_same rfl rfl rfl rfl
        split
        · exact hview
        · unfold Tracking.scheduleQualifiedView
          split
          · exact hview
          · exact ⟨hview.last, hview.tidy, hview.viewed⟩
    · exact .of_calls rfl rfl rfl
  | destroy =>
    show Handles opts now s (s.destroy opts now)
    unfold Tracking.destroy
    split
    · exact .of_calls rfl rfl rfl
    · have hstop : Handles opts now s (({ s with destroyed := true } : Tracking K).stopReading opts now
          .destroy) := handles_stopReading.of_same rfl rfl rfl rfl
      have hclear : Handles opts now s (({ s with destroyed := true } : Tracking K).stopReading opts now
          .destroy).clearViewTimer := ⟨hstop.last, hstop.tidy, hstop.viewed⟩
      exact hclear.flush

/-! ### The tracker and the stop watch -/

/-- The segment and the accumulated time after an event at `now`, when the article is read afterwards
    or not. -/
def clockAfter (reading : Bool) (now : K) (s : Tracking K) : Option K × K :=
  if reading then (some (s.segmentStartedAt.getD now), s.accumulatedMs) else (none, s.measuredMs now)

/-- The tracker agrees with the stop watch. -/
structure Agrees (w : Watched K) (s : Tracking K) : Prop where
  ended : s.destroyed = w.ended
  flags : w.ended = false → s.flags = (w.intersects, w.shown, w.visible, false)
  segment : s.segmentStartedAt = if w.reading then some w.since else none
  accumulated : s.accumulatedMs = w.finished
  nonneg : 0 ≤ w.finished
  number : rounded w.finished = w.finished
  since_le : w.since ≤ w.last
  dwell : s.lastDwellMs ≤ round w.finished

/-- What the tracker makes of an event at `now`: its flags are those of the watch `w`, and its clock
    follows the flags. -/
structure Follows (now : K) (s : Tracking K) (w : Watched K) (t : Tracking K) : Prop where
  ended : t.destroyed = w.ended
  flags : w.ended = false → t.flags = (w.intersects, w.shown, w.visible, false)
  clock : t.clock = clockAfter w.reading now s

variable {w : Watched K}

omit [FloorRing K] in
/-- The length of a segment is not negative. -/
theorem length_nonneg {startedAt : K} (h : startedAt ≤ now) : 0 ≤ rounded (now - startedAt) :=
  rounded_nonneg (sub_nonneg.mpr h)

omit [FloorRing K] in
/-- The time that is written down only grows, and it is a number. -/
theorem Watched.le_writtenDown (hnumber : rounded w.finished = w.finished) (h : w.since ≤ now)
    (ended : Bool) : w.finished ≤ w.writtenDown now ended
      ∧ rounded (w.writtenDown now ended) = w.writtenDown now ended := by
  unfold writtenDown
  split
  · refine ⟨?_, rounded_rounded _⟩
    calc w.finished = rounded w.finished := hnumber.symm
      _ ≤ rounded (w.finished + rounded (now - w.since)) :=
        rounded_mono (le_add_of_nonneg_right (length_nonneg h))
  · exact ⟨le_rfl, hnumber⟩

/-- The measured time is the one on the watch, if the present segment is over. -/
theorem Agrees.measuredMs (h : Agrees w s) (hnow : w.last ≤ now) :
    s.measuredMs now = w.writtenDown now true := by
  unfold Tracking.measuredMs Watched.writtenDown
  rw [h.segment, h.accumulated]
  cases w.reading with
  | true =>
    show rounded (w.finished + max 0 (rounded (now - w.since))) = _
    rw [max_eq_right (length_nonneg (h.since_le.trans hnow))]
    rfl
  | false => rfl

/-- **One event**: where the flags follow the event and the clock follows the flags, the tracker
    agrees with the watch again. -/
theorem Agrees.next {e : Event K} (h : Agrees w s) (hnow : w.last ≤ now)
    (hfollows : Follows now s (w.next (now, e)) t) (hhandles : Handles opts now s t) :
    Agrees (w.next (now, e)) t := by
  obtain ⟨hover, hflags, hclock⟩ := hfollows
  have hmeasured := h.measuredMs hnow
  obtain ⟨hgrows, hnumber⟩ := w.le_writtenDown h.number (h.since_le.trans hnow)
    (!(w.next (now, e)).reading)
  have hnonneg : 0 ≤ (w.next (now, e)).finished := h.nonneg.trans hgrows
  -- what is accumulated, and whether a segment goes on
  have hstate : t.segmentStartedAt
        = (if (w.next (now, e)).reading then some (w.next (now, e)).since else none)
      ∧ t.accumulatedMs = (w.next (now, e)).finished := by
    show _ ∧ _ = w.writtenDown now !(w.next (now, e)).reading
    unfold clockAfter at hclock
    cases hreading : (w.next (now, e)).reading with
    | true =>
      rw [hreading, if_pos rfl, h.segment, h.accumulated] at hclock
      obtain ⟨hsegment, haccumulated⟩ := Prod.mk.inj hclock
      refine ⟨?_, ?_⟩
      · rw [if_pos rfl, hsegment]
        show _ = some (if w.reading then w.since else now)
        cases w.reading <;> rfl
      · rw [haccumulated, Watched.writtenDown]
        simp
    | false =>
      rw [hreading, if_neg Bool.false_ne_true, hmeasured] at hclock
      exact Prod.mk.inj hclock
  obtain ⟨hsegment, haccumulated⟩ := hstate
  refine ⟨hover, hflags, hsegment, haccumulated, hnonneg, hnumber, ?_, ?_⟩
  · show (if w.reading then w.since else now) ≤ now
    split
    · exact h.since_le.trans hnow
    · exact le_rfl
  · rcases hhandles.last with hkept | hsent
    · rw [hkept]
      exact h.dwell.trans (round_mono hgrows)
    · rw [hsent]
      exact clampNumber_le_round hnonneg haccumulated.le

omit [IsStrictOrderedRing K] in
/-- `syncReading` after a change of the flags. -/
theorem follows_syncReading {s₁ : Tracking K} (hover : w.ended = false) (hclock : s₁.clock = s.clock)
    (hflags : s₁.flags = (w.intersects, w.shown, w.visible, false)) :
    Follows now s w (s₁.syncReading opts now trigger) := by
  have hflags' : (s₁.syncReading opts now trigger).flags = (w.intersects, w.shown, w.visible, false) :=
    Tracking.flags_syncReading.trans hflags
  refine ⟨(congrArg (fun f => f.2.2.2) hflags').trans hover.symm, fun _ => hflags', ?_⟩
  obtain ⟨hsegment, haccumulated⟩ := Prod.mk.inj hclock
  simp only [Tracking.flags, Prod.mk.injEq] at hflags
  obtain ⟨hintersects, hshown, hvisible, -⟩ := hflags
  have hread : s₁.shouldRead ↔ w.reading = true := by
    simp [Tracking.shouldRead, Watched.reading, hintersects, hshown, hvisible, hover, and_assoc]
  rw [Tracking.clock_syncReading, clockAfter, Tracking.measuredMs_congr hclock, hsegment, haccumulated]
  exact if_congr hread rfl rfl

omit [FloorRing K] [IsStrictOrderedRing K] in
theorem Follows.flush (h : Follows now s w t) : Follows now s w (t.call .flush) :=
  ⟨h.ended, h.flags, h.clock⟩

omit [IsStrictOrderedRing K] in
/-- An event that is none for the tracker leaves its clock as the watch wants it. -/
theorem Agrees.clock_same (h : Agrees w s) : s.clock = clockAfter w.reading now s := by
  unfold clockAfter
  have hsegment := h.segment
  cases hreading : w.reading with
  | true =>
    rw [hreading, if_pos rfl] at hsegment
    rw [if_pos rfl, Tracking.clock, hsegment]
    rfl
  | false =>
    rw [hreading, if_neg Bool.false_ne_true] at hsegment
    rw [if_neg Bool.false_ne_true, Tracking.clock, hsegment, Tracking.measuredMs_of_none hsegment]

omit [FloorRing K] [Arithmetic K] [IsStrictOrderedRing K] in
/-- What is over stays over. -/
theorem Watched.ended_change (e : Event K) (hover : w.ended = true) : (w.change e).ended = true := by
  cases e with
  | intersect entries =>
    unfold Watched.change
    dsimp only
    split
    · exact hover
    · exact hover
  | destroy => rfl
  | _ => exact hover

omit [IsStrictOrderedRing K] in
/-- The callback of a timeout moves neither the flags nor the clock. -/
theorem same_handleTimer (opts : Options K) (now : K) (s : Tracking K) :
    (s.handleTimer opts now).flags = s.flags ∧ (s.handleTimer opts now).clock = s.clock := by
  unfold Tracking.handleTimer
  dsimp only
  split
  · exact ⟨rfl, rfl⟩
  · split
    · exact ⟨Tracking.flags_sendQualifiedView, Tracking.clock_sendQualifiedView⟩
    · exact ⟨Tracking.flags_scheduleQualifiedView.trans Tracking.flags_sendQualifiedView,
        Tracking.clock_scheduleQualifiedView.trans Tracking.clock_sendQualifiedView⟩

omit [IsStrictOrderedRing K] in
/-- After `destroy` neither the flags nor the clock move. -/
theorem kept_of_destroyed (opts : Options K) (now : K) (e : Event K) (hgone : s.destroyed = true) :
    (step opts s (now, e)).destroyed = true ∧ (step opts s (now, e)).clock = s.clock := by
  cases e with
  | timer handle =>
    unfold step
    dsimp only
    split
    · obtain ⟨hflags, hclock⟩ := same_handleTimer opts now
        { s with timers := s.timers.fire handle }
      exact ⟨(congrArg (fun f => f.2.2.2) hflags).trans hgone, hclock⟩
    · exact ⟨hgone, rfl⟩
  | visibilitychange visible =>
    have hstep : step opts s (now, .visibilitychange visible) = { s with documentVisible := visible } :=
      if_pos hgone
    rw [hstep]
    exact ⟨hgone, rfl⟩
  | intersect | pagehide | pageshow | destroy =>
    show (if s.destroyed = true then s else _).destroyed = true
      ∧ (if s.destroyed = true then s else _).clock = s.clock
    rw [if_pos hgone]
    exact ⟨hgone, rfl⟩

omit [IsStrictOrderedRing K] in
/-- **The tracker follows the watch**, one event at a time. -/
theorem Agrees.follows {e : Event K} (h : Agrees w s) (hsingle : e.Single) :
    Follows now s (w.next (now, e)) (step opts s (now, e)) := by
  have hsame : s.clock = clockAfter w.reading now s := h.clock_same
  cases hover : w.ended with
  | true =>
    -- the observer is disconnected and the listeners are removed
    obtain ⟨hgone, hclock⟩ := kept_of_destroyed opts now e (h.ended.trans hover)
    have hover' : (w.next (now, e)).ended = true := Watched.ended_change e hover
    have hidle : (w.next (now, e)).reading = w.reading := by
      unfold Watched.reading
      rw [hover, hover']
      simp
    refine ⟨hgone.trans hover'.symm, fun hnot => ?_, ?_⟩
    · rw [hover'] at hnot
      cases hnot
    · rw [hclock, hidle]
      exact hsame
  | false =>
    have hlive : ¬ s.destroyed = true := by
      rw [h.ended, hover]
      exact Bool.false_ne_true
    have hflags := h.flags hover
    simp only [Tracking.flags, Prod.mk.injEq] at hflags
    obtain ⟨hintersects, hshown, hvisible, hdestroyed⟩ := hflags
    cases e with
    | intersect entries =>
      obtain ⟨entry, rfl⟩ := List.length_eq_one_iff.mp hsingle
      have hstep : step opts s (now, .intersect [entry])
          = ({ s with intersectsViewport := Tracking.inViewport entry } : Tracking K).syncReading opts now
              .viewportExit := if_neg hlive
      rw [hstep]
      exact follows_syncReading hover rfl
        (by simp [Tracking.flags, Watched.next, Watched.change, hshown, hvisible, hdestroyed])
    | visibilitychange visible =>
      have hsync : Follows now s (w.next (now, .visibilitychange visible))
          (({ s with documentVisible := visible } : Tracking K).syncReading opts now .pageHidden) :=
        follows_syncReading hover rfl
          (by simp [Tracking.flags, Watched.next, Watched.change, hintersects, hshown, hdestroyed])
      have hstep : step opts s (now, .visibilitychange visible)
          = ({ s with documentVisible := visible } : Tracking K).handleVisibilityChange opts now :=
        if_neg hlive
      rw [hstep]
      unfold Tracking.handleVisibilityChange
      dsimp only
      split
      · exact hsync.flush
      · exact hsync
    | pagehide =>
      have hsync : Follows now s (w.next (now, .pagehide))
          (({ s with pageShown := false } : Tracking K).syncReading opts now .pageHidden) :=
        follows_syncReading hover rfl
          (by simp [Tracking.flags, Watched.next, Watched.change, hintersects, hvisible, hdestroyed])
      rw [show step opts s (now, .pagehide) = s.handlePageHide opts now from if_neg hlive]
      exact hsync.flush
    | pageshow =>
      rw [show step opts s (now, .pageshow) = s.handlePageShow opts now from if_neg hlive]
      exact follows_syncReading hover rfl
        (by simp [Tracking.flags, Watched.next, Watched.change, hintersects, hvisible, hdestroyed])
    | timer handle =>
      have hflags := h.flags hover
      have hkept : (step opts s (now, .timer handle)).flags = s.flags
          ∧ (step opts s (now, .timer handle)).clock = s.clock := by
        unfold step
        dsimp only
        split
        · exact same_handleTimer opts now { s with timers := s.timers.fire handle }
        · exact ⟨rfl, rfl⟩
      refine ⟨?_, fun _ => hkept.1.trans hflags, hkept.2.trans hsame⟩
      exact (congrArg (fun f => f.2.2.2) hkept.1).trans h.ended
    | destroy =>
      have hreading : (w.next (now, .destroy)).reading = false := by
        simp [Watched.next, Watched.reading, Watched.change]
      have hstep : step opts s (now, .destroy)
          = ((({ s with destroyed := true } : Tracking K).stopReading opts now .destroy).clearViewTimer).call
              .flush := if_neg hlive
      have hstopped : (({ s with destroyed := true } : Tracking K).stopReading opts now .destroy).flags
          = ({ s with destroyed := true } : Tracking K).flags := Tracking.flags_stopReading
      refine ⟨?_, fun hnot => ?_, ?_⟩
      · rw [hstep]
        exact congrArg (fun f => f.2.2.2) hstopped
      · cases hnot
      · rw [hstep, hreading]
        exact Tracking.clock_stopReading

/-- The tracker and the watch agree when the tracker starts. -/
theorem agrees_start (documentVisible : Bool) (now : K) :
    Agrees (Watched.start documentVisible now) (Tracking.start documentVisible) where
  ended := rfl
  flags _ := rfl
  segment := rfl
  accumulated := rfl
  nonneg := le_rfl
  number := rounded_zero
  since_le := le_rfl
  dwell := by
    show (0 : Int) ≤ round (0 : K)
    rw [round_zero]

/-- **The run**: the tracker agrees with the watch after any events whose clock does not go back. -/
theorem Agrees.run {events : List (K × Event K)} (h : Agrees w s)
    (hclock : (w.last :: events.map Prod.fst).Pairwise (· ≤ ·))
    (hsingle : ∀ e ∈ events, e.2.Single) : Agrees (w.run events) (run opts s events) := by
  induction events generalizing w s with
  | nil => exact h
  | cons e events ih =>
    obtain ⟨now, e⟩ := e
    obtain ⟨hlater, hrest⟩ := List.pairwise_cons.mp hclock
    have hnow : w.last ≤ now := hlater now List.mem_cons_self
    have hnext : Agrees (w.next (now, e)) (step opts s (now, e)) :=
      h.next hnow (h.follows (hsingle (now, e) List.mem_cons_self)) (handles_step opts s (now, e))
    exact ih hnext hrest fun e he => hsingle e (List.mem_cons_of_mem _ he)

/-- One view at most and growing dwell times, after any events. -/
theorem tidy_run (events : List (K × Event K)) (h : Tidy s.calls s.viewSent s.lastDwellMs) :
    Tidy (run opts s events).calls (run opts s events).viewSent (run opts s events).lastDwellMs := by
  induction events generalizing s with
  | nil => exact h
  | cons e events ih => exact ih ((handles_step opts s e).tidy h)

omit [IsStrictOrderedRing K] in
/-- A destroyed tracker without a segment calls nothing. -/
theorem calls_of_destroyed {e : Event K} (hgone : s.destroyed = true) (hnone : s.segmentStartedAt = none) :
    (step opts s (now, e)).calls = s.calls := by
  cases e with
  | timer handle =>
    unfold step
    dsimp only
    split
    · unfold Tracking.handleTimer
      dsimp only
      rw [if_pos (Or.inl hnone)]
    · rfl
  | visibilitychange visible =>
    show (if s.destroyed = true then { s with documentVisible := visible } else _).calls = s.calls
    rw [if_pos hgone]
  | intersect | pagehide | pageshow | destroy =>
    show (if s.destroyed = true then s else _).calls = s.calls
    rw [if_pos hgone]

omit [IsStrictOrderedRing K] in
theorem calls_run_of_destroyed {events : List (K × Event K)} (hgone : s.destroyed = true)
    (hnone : s.segmentStartedAt = none) : (run opts s events).calls = s.calls := by
  induction events generalizing s with
  | nil => rfl
  | cons e events ih =>
    obtain ⟨hgone', hclock⟩ := kept_of_destroyed opts e.1 e.2 hgone
    have hnone' : (step opts s e).segmentStartedAt = none := (congrArg Prod.fst hclock).trans hnone
    exact (ih hgone' hnone').trans (calls_of_destroyed hgone hnone)

omit [FloorRing K] [IsStrictOrderedRing K] in
/-- After `destroy` the watch is over. -/
theorem Watched.ended_run {events : List (K × Event K)}
    (h : w.ended = true ∨ ∃ e ∈ events, e.2 = .destroy) : (w.run events).ended = true := by
  induction events generalizing w with
  | nil =>
    rcases h with hover | ⟨e, he, -⟩
    · exact hover
    · cases he
  | cons e events ih =>
    refine ih (w := w.next e) ?_
    rcases h with hover | ⟨e', he', hdestroy⟩
    · exact Or.inl (Watched.ended_change e.2 hover)
    · rcases List.mem_cons.mp he' with rfl | hin
      · left
        show (w.change e'.2).ended = true
        rw [hdestroy]
        rfl
      · exact Or.inr ⟨e', hin, hdestroy⟩

omit [FloorRing K] [IsStrictOrderedRing K] in
/-- The watch shows a time at which it was looked at. -/
theorem Watched.last_run_le {events : List (K × Event K)} (hlast : w.last ≤ now)
    (hevents : ∀ e ∈ events, e.1 ≤ now) : (w.run events).last ≤ now := by
  induction events generalizing w with
  | nil => exact hlast
  | cons e events ih =>
    refine ih ?_ fun e' he' => hevents e' (List.mem_cons_of_mem _ he')
    exact hevents e List.mem_cons_self

/-- **The tracker measures continuous reading**: in any order of events with a clock that does not go
    back, at most one view is sent, at an event in a segment that is, as the page subtracts, at least as
    long as the threshold; the dwell times grow and do not exceed the time on the watch, as the page adds;
    and nothing is called after `destroy`. -/
theorem measures_reading (opts : Options K) (documentVisible : Bool) (startedAt : K)
    (events : List (K × Event K))
    (hclock : (startedAt :: events.map Prod.fst).Pairwise (· ≤ ·))
    (hsingle : ∀ e ∈ events, e.2.Single) :
    let tracker : List (K × Event K) → Tracking K := run opts (Tracking.start documentVisible)
    let watch : List (K × Event K) → Watched K := (Watched.start documentVisible startedAt).run
    (views (tracker events).calls).length ≤ 1
      ∧ (∀ before e after, events = before ++ e :: after →
          views (tracker (before ++ [e])).calls ≠ views (tracker before).calls →
          (watch before).reading = true
            ∧ opts.qualifiedReadMs ≤ rounded (e.1 - (watch before).since))
      ∧ (dwells (tracker events).calls).Pairwise (· < ·)
      ∧ (∀ before after, events = before ++ after →
          ∀ d ∈ dwells (tracker before).calls, d ≤ (round (watch before).total : Int))
      ∧ ∀ before after, events = before ++ after → (∃ e ∈ before, e.2 = .destroy) →
          (tracker events).calls = (tracker before).calls := by
  intro tracker watch
  have htidy (es : List (K × Event K)) :
      Tidy (tracker es).calls (tracker es).viewSent (tracker es).lastDwellMs :=
    tidy_run es ⟨rfl, List.Pairwise.nil, nofun⟩
  have hagrees : ∀ before after, events = before ++ after → Agrees (watch before) (tracker before) := by
    rintro before after rfl
    refine (agrees_start documentVisible startedAt).run ?_ fun e he =>
      hsingle e (List.mem_append_left _ he)
    refine hclock.sublist (List.Sublist.cons_cons _ ?_)
    rw [List.map_append]
    exact List.sublist_append_left _ _
  refine ⟨?_, ?_, (htidy events).growing, ?_, ?_⟩
  · rw [(htidy events).oneView]
    split
    · exact le_rfl
    · exact Nat.zero_le 1
  · rintro before e after rfl hview
    have hbefore : Agrees (watch before) (tracker before) := hagrees before (e :: after) rfl
    have hafter : tracker (before ++ [e]) = step opts (tracker before) e := List.foldl_concat _ _ _ _
    rw [hafter] at hview
    rcases (handles_step opts (tracker before) e).viewed with hnone | ⟨begun, hbegun, hlong⟩
    · exact absurd hnone hview
    · have hsegment := hbefore.segment
      rw [hbegun] at hsegment
      cases hreading : (watch before).reading with
      | false =>
        rw [hreading, if_neg Bool.false_ne_true] at hsegment
        cases hsegment
      | true =>
        rw [hreading, if_pos rfl] at hsegment
        rw [Option.some.inj hsegment] at hlong
        -- the clock has not gone back since the segment began
        have hlast : (watch before).last ≤ e.1 := by
          rw [List.map_append, List.map_cons, ← List.cons_append, List.pairwise_append] at hclock
          have hpast := fun x hx => hclock.2.2 x hx e.1 List.mem_cons_self
          refine Watched.last_run_le (hpast startedAt List.mem_cons_self) fun e' he' => ?_
          exact hpast e'.1 (List.mem_cons_of_mem _ (List.mem_map_of_mem he'))
        rw [max_eq_right (length_nonneg (hbefore.since_le.trans hlast))] at hlong
        exact ⟨rfl, hlong⟩
  · rintro before after rfl d hd
    have hbefore : Agrees (watch before) (tracker before) := hagrees before after rfl
    have htotal := ((watch before).le_writtenDown hbefore.number hbefore.since_le true).1
    exact ((htidy before).upTo d hd).trans (Int.cast_le.mpr (hbefore.dwell.trans (round_mono htotal)))
  · rintro before after rfl hdestroy
    have hover : (watch before).ended = true := Watched.ended_run (Or.inr hdestroy)
    have hbefore : Agrees (watch before) (tracker before) := hagrees before after rfl
    have hsplit : tracker (before ++ after) = run opts (tracker before) after := List.foldl_append
    rw [hsplit]
    refine calls_run_of_destroyed (hbefore.ended.trans hover) ?_
    rw [hbefore.segment, Watched.reading, hover]
    simp

/-- A post is read for twelve seconds, left, read for two more, and closed. -/
def twoVisits : List (ℚ × Event ℚ) :=
  [(0, .intersect [⟨true, 1 / 2⟩]), (10000, .timer 1), (12000, .intersect [⟨false, 0⟩]),
    (13000, .intersect [⟨true, 1⟩]), (15000, .pagehide), (16000, .destroy)]

/-- The options of the reader in the examples. -/
def tenSeconds : Options ℚ := ⟨⟨"post", none, none, none, none⟩, none, 10000⟩

theorem measures_two_visits :
    views (run tenSeconds (Tracking.start true) twoVisits).calls = [10000]
      ∧ dwells (run tenSeconds (Tracking.start true) twoVisits).calls = [12000, 14000]
      ∧ (dwells (run tenSeconds (Tracking.start true) twoVisits).calls).Pairwise (· < ·) := by
  have hmeasures := measures_reading tenSeconds true 0 twoVisits (by decide +kernel) (by decide +kernel)
  exact ⟨by decide +kernel, by decide +kernel, hmeasures.2.2.1⟩

/-- A post that is in view from one time to another. -/
def inView (begun left : ℚ) : List (ℚ × Event ℚ) :=
  [(begun, .intersect [⟨true, 1⟩]), (left, .intersect [⟨false, 0⟩])]

/-- **Counterexample.**  From the double next to 0.1 to the one next to 0.6 a post is in view for less
    than half a millisecond, and a dwell time of a millisecond is sent; from 0.3 to 10000.3 it is less
    than ten seconds, and the view is sent. -/
theorem rounded_up :
    (∀ x ∈ ([0.1, 0.6, 0.3, 10000.3] : List ℚ),
        Python.nearestDouble (Python.nearestDouble x) = Python.nearestDouble x)
      ∧ round (Python.nearestDouble 0.6 - Python.nearestDouble 0.1) = 0
      ∧ dwells (run tenSeconds (Tracking.start true)
          (inView (Python.nearestDouble 0.1) (Python.nearestDouble 0.6))).calls = [1]
      ∧ Python.nearestDouble 10000.3 - Python.nearestDouble 0.3 < tenSeconds.qualifiedReadMs
      ∧ views (run tenSeconds (Tracking.start true)
          (inView (Python.nearestDouble 0.3) (Python.nearestDouble 10000.3))).calls = [10000] :=
  ⟨fun x _ => Python.isDouble_nearestDouble x, by decide +kernel, by decide +kernel, by decide +kernel,
    by decide +kernel⟩

end Order

end Oecophylla.Frontend.DetailRead
