import Oecophylla.Frontend.Recorder

namespace Oecophylla.Frontend.ViewTracker

/-!
# Seeing a post — `viewTracker.ts`

The tracker of a post in a list: the post is exposed when half of it has been in the viewport for a
while, viewed when it has stayed there long enough, and what it was in view for is sent when it leaves.

* `step` — one event: a callback of the observer, a change of the page, a timeout, or `destroy`;
* `Counting` — a segment runs exactly while the post is in view on a visible page.
-/

variable {K : Type*} [Field K] [LinearOrder K] [FloorRing K]

/-- The options of a tracker that has started with a client. -/
structure Options (K : Type*) where
  context : RecommendationContext
  qualifiedReadMs : K

/-- The variables of `viewTracker`, the state of the page, and the calls so far. -/
structure Tracking (K : Type*) where
  visibleTimer : Option Nat
  viewTimer : Option Nat
  visibleStartedAt : Option K
  latestRatio : K
  intersectsAtThreshold : Bool
  visibleSent : Bool
  viewSent : Bool
  /-- The timeouts after `VISIBLE_THRESHOLD_MS`. -/
  visibleTimers : Timers
  /-- The timeouts after `qualifiedReadMs`. -/
  viewTimers : Timers
  /-- The observer and the listener are there. -/
  connected : Bool
  /-- `pageIsVisible()`. -/
  documentVisible : Bool
  calls : List (Call K)

/-- What happens to a tracker. -/
inductive Event (K : Type*) where
  | intersect (entries : List (Entry K))
  | visibilitychange (visible : Bool)
  | visibleTimer (handle : Nat)
  | viewTimer (handle : Nat)
  | destroy
  deriving DecidableEq, Repr

namespace Tracking

/-- The tracker when it has started on a page that is visible or not. -/
def start (documentVisible : Bool) : Tracking K where
  visibleTimer := none
  viewTimer := none
  visibleStartedAt := none
  latestRatio := 1 / 2
  intersectsAtThreshold := false
  visibleSent := false
  viewSent := false
  visibleTimers := {}
  viewTimers := {}
  connected := true
  documentVisible := documentVisible
  calls := []

variable (opts : Options K) (now : K) (s : Tracking K)

/-- A call on the client. -/
def call (c : Call K) : Tracking K := { s with calls := s.calls ++ [c] }

/-- `clearThresholdTimers()`. -/
def clearThresholdTimers : Tracking K :=
  { s with
    visibleTimers := s.visibleTimers.clear s.visibleTimer
    viewTimers := s.viewTimers.clear s.viewTimer
    visibleTimer := none
    viewTimer := none }

/-- `finishVisibleSegment(trigger)`. -/
def finishVisibleSegment (trigger : DwellTrigger) : Tracking K :=
  match s.visibleStartedAt with
  | none => s
  | some startedAt =>
    let dwellMs := clampMilliseconds (now - startedAt)
    let finished := { s with visibleStartedAt := none }.clearThresholdTimers
    if 0 < dwellMs then finished.call (.dwell opts.context (dwellMs : Int) trigger none) else finished

/-- `startVisibleSegment()`; a timeout may fire later than its delay. -/
def startVisibleSegment : Tracking K :=
  if s.intersectsAtThreshold = false ∨ s.documentVisible = false ∨ s.visibleStartedAt ≠ none then s
  else
    let started := { s with visibleStartedAt := some now }
    let exposing :=
      if started.visibleSent then started
      else { started with
        visibleTimer := some started.visibleTimers.next, visibleTimers := started.visibleTimers.set }
    if exposing.viewSent then exposing
    else { exposing with
      viewTimer := some exposing.viewTimers.next, viewTimers := exposing.viewTimers.set }

/-- The callback of the first timeout. -/
def handleVisibleTimer : Tracking K :=
  if s.documentVisible = false then s.finishVisibleSegment opts now .pageHidden
  else if s.visibleStartedAt = none then s
  else { s with visibleSent := true, visibleTimer := none }.call (.visible opts.context s.latestRatio)

/-- The callback of the second timeout. -/
def handleViewTimer : Tracking K :=
  if s.documentVisible = false then s.finishVisibleSegment opts now .pageHidden
  else if s.visibleStartedAt = none then s
  else { s with viewSent := true, viewTimer := none }.call
    (.view opts.context .feed opts.qualifiedReadMs none)

/-- `entry.isIntersecting && entry.intersectionRatio >= 0.5`. -/
def atThreshold (entry : Entry K) : Bool :=
  entry.isIntersecting && decide (1 / 2 ≤ entry.intersectionRatio)

/-- The callback of the observer. -/
def handleIntersection (entries : List (Entry K)) : Tracking K :=
  match entries.find? atThreshold with
  | some visibleEntry =>
    { s with latestRatio := visibleEntry.intersectionRatio, intersectsAtThreshold := true
      }.startVisibleSegment now
  | none => { s with intersectsAtThreshold := false }.finishVisibleSegment opts now .viewportExit

/-- `handleVisibilityChange()`. -/
def handleVisibilityChange : Tracking K :=
  if s.documentVisible then s.startVisibleSegment now
  else (s.finishVisibleSegment opts now .pageHidden).call .flush

/-- `destroy()`; the observer is disconnected and the listener is removed. -/
def destroy : Tracking K :=
  { (s.finishVisibleSegment opts now .destroy).clearThresholdTimers with connected := false }.call .flush

end Tracking

/-- One event at a time.  A disconnected observer and a removed listener are not called, and only a
    timeout that is pending fires; the page goes on without them. -/
def step (opts : Options K) (s : Tracking K) (e : K × Event K) : Tracking K :=
  match e with
  | (now, .intersect entries) => if s.connected then s.handleIntersection opts now entries else s
  | (now, .visibilitychange visible) =>
    let changed := { s with documentVisible := visible }
    if s.connected then changed.handleVisibilityChange opts now else changed
  | (now, .visibleTimer handle) =>
    if handle ∈ s.visibleTimers.pending then
      { s with visibleTimers := s.visibleTimers.fire handle }.handleVisibleTimer opts now
    else s
  | (now, .viewTimer handle) =>
    if handle ∈ s.viewTimers.pending then
      { s with viewTimers := s.viewTimers.fire handle }.handleViewTimer opts now
    else s
  | (now, .destroy) => s.destroy opts now

/-- The tracker after a sequence of events. -/
def run (opts : Options K) (s : Tracking K) (events : List (K × Event K)) : Tracking K :=
  events.foldl (step opts) s

/-! ### When the tracker counts -/

namespace Tracking

variable {opts : Options K} {now : K} {s : Tracking K} {trigger : DwellTrigger}

/-- What of the tracker is not the segment: whether the post is in view, on a page that is visible,
    and whether the tracker is called. -/
def flags (s : Tracking K) : Bool × Bool × Bool :=
  (s.intersectsAtThreshold, s.documentVisible, s.connected)

/-- A segment runs exactly while the post is in view on a visible page. -/
def Counting (s : Tracking K) : Prop :=
  s.visibleStartedAt.isSome = (s.intersectsAtThreshold && s.documentVisible)

/-- A finished segment is none, and the flags stay as they are. -/
theorem finishVisibleSegment_spec (opts : Options K) (now : K) (s : Tracking K) (trigger : DwellTrigger) :
    (s.finishVisibleSegment opts now trigger).visibleStartedAt = none
      ∧ (s.finishVisibleSegment opts now trigger).flags = s.flags := by
  unfold finishVisibleSegment
  split
  · next hnone => exact ⟨hnone, rfl⟩
  · dsimp only
    split
    · exact ⟨rfl, rfl⟩
    · exact ⟨rfl, rfl⟩

omit [Field K] [LinearOrder K] [FloorRing K] in
/-- A segment is started when the post is in view on a visible page. -/
theorem startVisibleSegment_spec (now : K) (s : Tracking K) :
    (s.startVisibleSegment now).visibleStartedAt
        = (if s.intersectsAtThreshold && s.documentVisible then some (s.visibleStartedAt.getD now)
          else s.visibleStartedAt)
      ∧ (s.startVisibleSegment now).flags = s.flags := by
  unfold startVisibleSegment
  split
  · next hkept =>
    refine ⟨?_, rfl⟩
    rcases hkept with hout | hhidden | hrunning
    · simp [hout]
    · simp [hhidden]
    · obtain ⟨startedAt, hstarted⟩ := Option.ne_none_iff_exists'.mp hrunning
      simp [hstarted]
  · next hstart =>
    obtain ⟨hin, hvisible, hnone⟩ : s.intersectsAtThreshold = true ∧ s.documentVisible = true
        ∧ s.visibleStartedAt = none := by simpa using hstart
    -- the timeouts that are set do not touch the segment
    dsimp only
    split
    · split
      · exact ⟨by simp [hin, hvisible, hnone], rfl⟩
      · exact ⟨by simp [hin, hvisible, hnone], rfl⟩
    · split
      · exact ⟨by simp [hin, hvisible, hnone], rfl⟩
      · exact ⟨by simp [hin, hvisible, hnone], rfl⟩

/-- A state without a segment, with a post that is out of view or a page that is hidden. -/
theorem Counting.of_finish (hout : s.intersectsAtThreshold = false ∨ s.documentVisible = false) :
    (s.finishVisibleSegment opts now trigger).Counting := by
  obtain ⟨hnone, hflags⟩ := finishVisibleSegment_spec opts now s trigger
  simp only [flags, Prod.mk.injEq] at hflags
  obtain ⟨hin, hvisible, -⟩ := hflags
  unfold Counting
  rw [hnone, hin, hvisible]
  rcases hout with hout | hhidden
  · simp [hout]
  · simp [hhidden]

omit [Field K] [LinearOrder K] [FloorRing K] in
/-- Starting counts when no segment runs out of view or on a hidden page. -/
theorem Counting.of_start
    (hidle : (s.intersectsAtThreshold && s.documentVisible) = false → s.visibleStartedAt = none) :
    (s.startVisibleSegment now).Counting := by
  obtain ⟨hsegment, hflags⟩ := startVisibleSegment_spec now s
  simp only [flags, Prod.mk.injEq] at hflags
  obtain ⟨hin, hvisible, -⟩ := hflags
  unfold Counting
  rw [hsegment, hin, hvisible]
  cases hcount : s.intersectsAtThreshold && s.documentVisible with
  | true => rfl
  | false => simp [hidle hcount]

omit [Field K] [LinearOrder K] [FloorRing K] in
/-- Where the post is out of view or the page is hidden, nothing runs. -/
theorem Counting.idle (h : s.Counting)
    (hout : (s.intersectsAtThreshold && s.documentVisible) = false) : s.visibleStartedAt = none := by
  have hnone : s.visibleStartedAt.isSome = false := h.trans hout
  simpa using hnone

/-- What the callback of the first timeout does to the segment. -/
theorem handleVisibleTimer_cases (opts : Options K) (now : K) (s : Tracking K) :
    s.handleVisibleTimer opts now = s.finishVisibleSegment opts now .pageHidden
        ∧ s.documentVisible = false
      ∨ (s.handleVisibleTimer opts now).visibleStartedAt = s.visibleStartedAt
        ∧ (s.handleVisibleTimer opts now).flags = s.flags := by
  unfold handleVisibleTimer
  split
  · next hhidden => exact Or.inl ⟨rfl, hhidden⟩
  · split
    · exact Or.inr ⟨rfl, rfl⟩
    · exact Or.inr ⟨rfl, rfl⟩

/-- What the callback of the second timeout does to the segment. -/
theorem handleViewTimer_cases (opts : Options K) (now : K) (s : Tracking K) :
    s.handleViewTimer opts now = s.finishVisibleSegment opts now .pageHidden
        ∧ s.documentVisible = false
      ∨ (s.handleViewTimer opts now).visibleStartedAt = s.visibleStartedAt
        ∧ (s.handleViewTimer opts now).flags = s.flags := by
  unfold handleViewTimer
  split
  · next hhidden => exact Or.inl ⟨rfl, hhidden⟩
  · split
    · exact Or.inr ⟨rfl, rfl⟩
    · exact Or.inr ⟨rfl, rfl⟩

end Tracking

section Steps

open Tracking

variable {opts : Options K} {s : Tracking K}

/-- While the tracker is called, its segment follows what it takes for visible. -/
def Follows (s : Tracking K) : Prop := s.connected = true → s.Counting

/-- The callback of a timeout on a hidden page finishes the segment; on a visible page it leaves the
    segment and the flags as they are. -/
theorem Follows.of_timeout {t : Tracking K} {now : K} {trigger : DwellTrigger} (h : Follows s)
    (ht : t = s.finishVisibleSegment opts now trigger ∧ s.documentVisible = false
      ∨ t.visibleStartedAt = s.visibleStartedAt ∧ t.flags = s.flags) : Follows t := by
  intro hlive
  rcases ht with ⟨rfl, hhidden⟩ | ⟨hsegment, hflags⟩
  · exact .of_finish (Or.inr hhidden)
  · simp only [flags, Prod.mk.injEq] at hflags
    obtain ⟨hin, hvisible, hconnected⟩ := hflags
    unfold Counting
    rw [hsegment, hin, hvisible]
    exact h (hconnected ▸ hlive)

/-- What a callback of the observer makes of the flags: the post is in view when some entry of the
    batch is. -/
theorem flags_handleIntersection (now : K) (entries : List (Entry K)) :
    (s.handleIntersection opts now entries).flags
      = (entries.any atThreshold, s.documentVisible, s.connected) := by
  unfold handleIntersection
  split
  · next entry hfind =>
    have hany : entries.any atThreshold = true :=
      List.any_eq_true.mpr ⟨entry, List.mem_of_find?_eq_some hfind, List.find?_some hfind⟩
    rw [(startVisibleSegment_spec now _).2, hany]
    rfl
  · next hfind =>
    have hnone : entries.any atThreshold = false := by simpa using hfind
    rw [(finishVisibleSegment_spec opts now _ _).2, hnone]
    rfl

theorem counting_handleIntersection (now : K) (entries : List (Entry K)) (h : s.Counting) :
    (s.handleIntersection opts now entries).Counting := by
  unfold handleIntersection
  split
  · refine .of_start fun hout => ?_
    have hhidden : s.documentVisible = false := by simpa using hout
    exact h.idle (by simp [hhidden])
  · exact .of_finish (Or.inl rfl)

/-- **Every event** leaves a segment only where the post is in view on a visible page. -/
theorem follows_step (e : K × Event K) (h : Follows s) : Follows (step opts s e) := by
  obtain ⟨now, e⟩ := e
  cases e with
  | intersect entries =>
    show Follows (if s.connected then s.handleIntersection opts now entries else s)
    split
    · next hlive => exact fun _ => counting_handleIntersection now entries (h hlive)
    · exact h
  | visibilitychange visible =>
    show Follows (if s.connected then ({ s with documentVisible := visible } : Tracking K).handleVisibilityChange
      opts now else { s with documentVisible := visible })
    split
    · next hlive =>
      intro _
      unfold handleVisibilityChange
      cases visible with
      | true =>
        -- a page that was hidden has no segment
        refine Counting.of_start fun hout => ?_
        have hview : s.intersectsAtThreshold = false := by simpa using hout
        exact (h hlive).idle (by simp [hview])
      | false =>
        have hfinished : (({ s with documentVisible := false } : Tracking K).finishVisibleSegment opts now
            .pageHidden).Counting := .of_finish (Or.inr rfl)
        exact hfinished
    · next hgone => exact fun hlive => absurd hlive hgone
  | visibleTimer handle =>
    show Follows (if handle ∈ s.visibleTimers.pending then
      ({ s with visibleTimers := s.visibleTimers.fire handle } : Tracking K).handleVisibleTimer opts now else s)
    split
    · have hsame : Follows { s with visibleTimers := s.visibleTimers.fire handle } := h
      exact hsame.of_timeout (handleVisibleTimer_cases opts now _)
    · exact h
  | viewTimer handle =>
    show Follows (if handle ∈ s.viewTimers.pending then
      ({ s with viewTimers := s.viewTimers.fire handle } : Tracking K).handleViewTimer opts now else s)
    split
    · have hsame : Follows { s with viewTimers := s.viewTimers.fire handle } := h
      exact hsame.of_timeout (handleViewTimer_cases opts now _)
    · exact h
  | destroy => exact nofun

/-- While the tracker is called, its segment follows its flags, after any events. -/
theorem follows_run (events : List (K × Event K)) (h : Follows s) : Follows (run opts s events) := by
  induction events generalizing s with
  | nil => exact h
  | cons e events ih => exact ih (follows_step e h)

end Steps

end Oecophylla.Frontend.ViewTracker
