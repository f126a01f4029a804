import Oecophylla.Frontend.DetailRead
import Oecophylla.Frontend.ViewTracker

namespace Oecophylla.Frontend.Visibility

/-!
# Which entry of a batch counts

A callback of an `IntersectionObserver` brings the entries of the element since the last one, the most
recent one at the end.  `detailReadTracker` looks at the first entry for the element, `viewTracker` at
any entry that shows the post.

* `AtCallbacks` — what holds at every callback that is delivered;
* `DetailRead.Latest`, `ViewTracker.Latest` — a tracker is in the state of the most recent entry;
* `follows_latest_iff` — a tracker is, after every callback, exactly where no batch hides a change.
-/

variable {K : Type*} [Field K] [LinearOrder K] [FloorRing K]

/-- What holds at every callback that is delivered, of the events before it, its time and its batch. -/
def AtCallbacks {E : Type*} (intersect : List (Entry K) → E) (destroy : E) (events : List (K × E))
    (P : List (K × E) → K → List (Entry K) → Prop) : Prop :=
  ∀ before now entries after, events = before ++ (now, intersect entries) :: after →
    (∀ e ∈ before, e.2 ≠ destroy) → P before now entries

omit [Field K] [LinearOrder K] [FloorRing K] in
theorem AtCallbacks.congr {E : Type*} {intersect : List (Entry K) → E} {destroy : E}
    {events : List (K × E)} {P Q : List (K × E) → K → List (Entry K) → Prop}
    (h : AtCallbacks intersect destroy events fun before now entries =>
      P before now entries ↔ Q before now entries) :
    AtCallbacks intersect destroy events P ↔ AtCallbacks intersect destroy events Q :=
  ⟨fun hP before now entries after hsplit hlive =>
    (h before now entries after hsplit hlive).mp (hP before now entries after hsplit hlive),
  fun hQ before now entries after hsplit hlive =>
    (h before now entries after hsplit hlive).mpr (hQ before now entries after hsplit hlive)⟩

omit [Field K] [LinearOrder K] [FloorRing K] in
/-- A single callback. -/
theorem atCallbacks_single {E : Type*} {intersect : List (Entry K) → E} {destroy : E} {now : K}
    {entries : List (Entry K)} {P : List (Entry K) → Prop}
    (hinjective : ∀ entries', intersect entries = intersect entries' → entries = entries')
    (h : P entries) : AtCallbacks intersect destroy [(now, intersect entries)] fun _ _ e => P e := by
  intro before now' entries' after hsplit _
  obtain ⟨rfl, hrest⟩ : before = [] ∧ (now', intersect entries') :: after = [(now, intersect entries)] := by
    cases before with
    | nil => exact ⟨rfl, hsplit.symm⟩
    | cons e before => simp at hsplit
  obtain ⟨hpair, -⟩ := List.cons.inj hrest
  exact hinjective entries' (Prod.mk.inj hpair).2.symm ▸ h

/-- Whether the most recent entry of a batch is one of the element in view. -/
def latest (visible : Entry K → Bool) (entries : List (Entry K)) : Bool :=
  entries.getLast?.any visible

end Oecophylla.Frontend.Visibility

/-! ### The detail page -/

namespace Oecophylla.Frontend.DetailRead

open Tracking Visibility

variable {K : Type*} [Field K] [LinearOrder K] [FloorRing K] [Arithmetic K] {opts : Options K}
  {s : Tracking K}

/-- The tracker is in the state of the most recent entry: its flag is the one of the entry, and it
    counts if the entry and the page say so. -/
def Latest (entries : List (Entry K)) (s : Tracking K) : Prop :=
  s.intersectsViewport = latest inViewport entries
    ∧ s.segmentStartedAt.isSome = (latest inViewport entries && s.pageShown && s.documentVisible)

/-- `syncReading` leaves a segment exactly where the article can be read. -/
theorem isSome_syncReading {now : K} {trigger : DwellTrigger} :
    (s.syncReading opts now trigger).segmentStartedAt.isSome
      = (s.intersectsViewport && s.pageShown && s.documentVisible) := by
  have hread : s.shouldRead ↔ (s.intersectsViewport && s.pageShown && s.documentVisible) = true := by
    simp [shouldRead, and_assoc]
  show (s.syncReading opts now trigger).clock.1.isSome = _
  rw [clock_syncReading]
  by_cases h : s.shouldRead
  · rw [if_pos h, hread.mp h]
    rfl
  · rw [if_neg h, Bool.eq_false_iff.mpr (mt hread.mpr h)]
    rfl

/-- Only `destroy` destroys a tracker. -/
theorem destroyed_step {e : K × Event K} (he : e.2 ≠ .destroy) :
    (step opts s e).destroyed = s.destroyed := by
  obtain ⟨now, e⟩ := e
  have hsync (t : Tracking K) (trigger : DwellTrigger) :
      (t.syncReading opts now trigger).destroyed = t.destroyed :=
    congrArg (fun f => f.2.2.2) flags_syncReading
  cases e with
  | intersect entries =>
    show (if s.destroyed then s else s.handleIntersection opts now entries).destroyed = s.destroyed
    split
    · rfl
    · unfold handleIntersection
      split
      · rfl
      · exact hsync _ _
  | visibilitychange visible =>
    show (if s.destroyed then { s with documentVisible := visible }
      else ({ s with documentVisible := visible } : Tracking K).handleVisibilityChange opts now).destroyed = _
    split
    · rfl
    · unfold handleVisibilityChange
      dsimp only
      split
      · exact hsync _ _
      · exact hsync _ _
  | pagehide =>
    show (if s.destroyed then s else s.handlePageHide opts now).destroyed = s.destroyed
    split
    · rfl
    · exact hsync _ _
  | pageshow =>
    show (if s.destroyed then s else s.handlePageShow opts now).destroyed = s.destroyed
    split
    · rfl
    · exact hsync _ _
  | timer handle =>
    show (if handle ∈ s.timers.pending then
      ({ s with timers := s.timers.fire handle } : Tracking K).handleTimer opts now else s).destroyed = _
    split
    · exact congrArg (fun f => f.2.2.2) (same_handleTimer opts now _).1
    · rfl
  | destroy => exact absurd rfl he

/-- A tracker that was not destroyed is called. -/
theorem destroyed_run {events : List (K × Event K)} (hevents : ∀ e ∈ events, e.2 ≠ .destroy)
    (h : s.destroyed = false) : (run opts s events).destroyed = false := by
  induction events generalizing s with
  | nil => exact h
  | cons e events ih =>
    refine ih (fun e' he' => hevents e' (List.mem_cons_of_mem _ he')) ?_
    exact (destroyed_step (hevents e List.mem_cons_self)).trans h

/-- After a callback, the tracker is in the state of the first entry. -/
theorem latest_iff_first (hlive : s.destroyed = false) (now : K) {entries : List (Entry K)}
    (hne : entries ≠ []) :
    Latest entries (step opts s (now, .intersect entries))
      ↔ entries.head?.any inViewport = latest inViewport entries := by
  obtain ⟨first, rest, rfl⟩ := List.exists_cons_of_ne_nil hne
  have hstep : step opts s (now, .intersect (first :: rest))
      = ({ s with intersectsViewport := inViewport first } : Tracking K).syncReading opts now
          .viewportExit := if_neg (by simp [hlive])
  have hsegment : (step opts s (now, .intersect (first :: rest))).segmentStartedAt.isSome
      = (inViewport first && s.pageShown && s.documentVisible) := by
    rw [hstep]
    exact isSome_syncReading
  have hflags : (step opts s (now, .intersect (first :: rest))).flags
      = (inViewport first, s.pageShown, s.documentVisible, s.destroyed) := by
    rw [hstep]
    exact flags_syncReading
  simp only [flags, Prod.mk.injEq] at hflags
  obtain ⟨hin, hshown, hvisible, -⟩ := hflags
  unfold Latest
  rw [hin, hshown, hvisible, hsegment]
  show _ ↔ inViewport first = _
  refine ⟨fun h => h.1, fun h => ⟨h, ?_⟩⟩
  rw [h]

end Oecophylla.Frontend.DetailRead

/-! ### The list -/

namespace Oecophylla.Frontend.ViewTracker

open Tracking Visibility

variable {K : Type*} [Field K] [LinearOrder K] [FloorRing K] {opts : Options K} {s : Tracking K}

/-- The tracker is in the state of the most recent entry: its flag is the one of the entry, and it
    counts if the entry and the page say so. -/
def Latest (entries : List (Entry K)) (s : Tracking K) : Prop :=
  s.intersectsAtThreshold = latest atThreshold entries
    ∧ s.visibleStartedAt.isSome = (latest atThreshold entries && s.documentVisible)

/-- Only `destroy` disconnects a tracker. -/
theorem connected_step {e : K × Event K} (he : e.2 ≠ .destroy) :
    (step opts s e).connected = s.connected := by
  obtain ⟨now, e⟩ := e
  have hfinish (t : Tracking K) (trigger : DwellTrigger) :
      (t.finishVisibleSegment opts now trigger).connected = t.connected :=
    congrArg (fun f => f.2.2) (finishVisibleSegment_spec opts now t trigger).2
  have hstart (t : Tracking K) : (t.startVisibleSegment now).connected = t.connected :=
    congrArg (fun f => f.2.2) (startVisibleSegment_spec now t).2
  cases e with
  | intersect entries =>
    show (if s.connected then s.handleIntersection opts now entries else s).connected = s.connected
    split
    · exact congrArg (fun f => f.2.2) (flags_handleIntersection now entries)
    · rfl
  | visibilitychange visible =>
    show (if s.connected then ({ s with documentVisible := visible } : Tracking K).handleVisibilityChange
      opts now else { s with documentVisible := visible }).connected = _
    split
    · unfold handleVisibilityChange
      split
      · exact hstart _
      · exact hfinish _ _
    · rfl
  | visibleTimer handle =>
    show (if handle ∈ s.visibleTimers.pending then
      ({ s with visibleTimers := s.visibleTimers.fire handle } : Tracking K).handleVisibleTimer opts now
      else s).connected = _
    split
    · rcases handleVisibleTimer_cases opts now
        { s with visibleTimers := s.visibleTimers.fire handle } with ⟨hfinished, -⟩ | ⟨-, hflags⟩
      · rw [hfinished]
        exact hfinish _ _
      · exact congrArg (fun f => f.2.2) hflags
    · rfl
  | viewTimer handle =>
    show (if handle ∈ s.viewTimers.pending then
      ({ s with viewTimers := s.viewTimers.fire handle } : Tracking K).handleViewTimer opts now
      else s).connected = _
    split
    · rcases handleViewTimer_cases opts now
        { s with viewTimers := s.viewTimers.fire handle } with ⟨hfinished, -⟩ | ⟨-, hflags⟩
      · rw [hfinished]
        exact hfinish _ _
      · exact congrArg (fun f => f.2.2) hflags
    · rfl
  | destroy => exact absurd rfl he

/-- A tracker that was not destroyed is called. -/
theorem connected_run {events : List (K × Event K)} (hevents : ∀ e ∈ events, e.2 ≠ .destroy)
    (h : s.connected = true) : (run opts s events).connected = true := by
  induction events generalizing s with
  | nil => exact h
  | cons e events ih =>
    refine ih (fun e' he' => hevents e' (List.mem_cons_of_mem _ he')) ?_
    exact (connected_step (hevents e List.mem_cons_self)).trans h

/-- After a callback, the tracker is in view if any entry of the batch is. -/
theorem latest_iff_any (hlive : s.connected = true) (hfollows : Follows s) (now : K)
    (entries : List (Entry K)) :
    Latest entries (step opts s (now, .intersect entries))
      ↔ entries.any atThreshold = latest atThreshold entries := by
  have hstep : step opts s (now, .intersect entries) = s.handleIntersection opts now entries :=
    if_pos hlive
  have hflags : (step opts s (now, .intersect entries)).flags
      = (entries.any atThreshold, s.documentVisible, s.connected) := by
    rw [hstep]
    exact flags_handleIntersection now entries
  have hcount : (step opts s (now, .intersect entries)).Counting := by
    rw [hstep]
    exact counting_handleIntersection now entries (hfollows hlive)
  simp only [flags, Prod.mk.injEq] at hflags
  obtain ⟨hin, hvisible, -⟩ := hflags
  unfold Counting at hcount
  unfold Latest
  rw [hcount, hin, hvisible]
  refine ⟨fun h => h.1, fun h => ⟨h, ?_⟩⟩
  rw [h]

end Oecophylla.Frontend.ViewTracker

namespace Oecophylla.Frontend.Visibility

/-! ### Both -/

variable {K : Type*} [Field K] [LinearOrder K] [FloorRing K]

/-- After every callback `detailReadTracker` is in the state of the most recent entry. -/
def DetailFollows [Arithmetic K] (opts : DetailRead.Options K) (documentVisible : Bool)
    (events : List (K × DetailRead.Event K)) : Prop :=
  AtCallbacks .intersect .destroy events fun before now entries => DetailRead.Latest entries
    (DetailRead.run opts (.start documentVisible) (before ++ [(now, .intersect entries)]))

/-- After every callback `viewTracker` is in the state of the most recent entry. -/
def FeedFollows (opts : ViewTracker.Options K) (documentVisible : Bool)
    (events : List (K × ViewTracker.Event K)) : Prop :=
  AtCallbacks .intersect .destroy events fun before now entries => ViewTracker.Latest entries
    (ViewTracker.run opts (.start documentVisible) (before ++ [(now, .intersect entries)]))

/-- **Which trackers follow the latest visibility**, over any events: `detailReadTracker`, which wants a batch to
    bring something, where the first entry of every batch is as visible as the last one,
    `viewTracker` where the last entry of a batch shows the post when any of them does. -/
theorem follows_latest_iff [Arithmetic K] (detail : DetailRead.Options K) (feed : ViewTracker.Options K)
    (documentVisible : Bool) (events : List (K × DetailRead.Event K))
    (events' : List (K × ViewTracker.Event K))
    (hne : ∀ e ∈ events, e.2 ≠ .intersect []) :
    (DetailFollows detail documentVisible events
        ↔ AtCallbacks DetailRead.Event.intersect .destroy events fun _ _ entries =>
          entries.head?.any DetailRead.Tracking.inViewport
            = latest DetailRead.Tracking.inViewport entries)
      ∧ (FeedFollows feed documentVisible events'
        ↔ AtCallbacks ViewTracker.Event.intersect .destroy events' fun _ _ entries =>
          entries.any ViewTracker.Tracking.atThreshold
            = latest ViewTracker.Tracking.atThreshold entries) := by
  refine ⟨AtCallbacks.congr ?_, AtCallbacks.congr ?_⟩
  · intro before now entries after hsplit hbefore
    have hcons : entries ≠ [] := by
      rintro rfl
      exact hne (now, .intersect []) (by simp [hsplit]) rfl
    have hlive : (DetailRead.run detail (.start documentVisible) before).destroyed = false :=
      DetailRead.destroyed_run hbefore rfl
    have hsnoc : DetailRead.run detail (.start documentVisible) (before ++ [(now, .intersect entries)])
        = DetailRead.step detail (DetailRead.run detail (.start documentVisible) before)
            (now, .intersect entries) := List.foldl_concat _ _ _ _
    rw [hsnoc]
    exact DetailRead.latest_iff_first hlive now hcons
  · intro before now entries after hsplit hbefore
    have hlive : (ViewTracker.run feed (.start documentVisible) before).connected = true :=
      ViewTracker.connected_run hbefore rfl
    have hfollows : ViewTracker.Follows (ViewTracker.run feed (.start documentVisible) before) :=
      ViewTracker.follows_run before fun _ => rfl
    have hsnoc : ViewTracker.run feed (.start documentVisible) (before ++ [(now, .intersect entries)])
        = ViewTracker.step feed (ViewTracker.run feed (.start documentVisible) before)
            (now, .intersect entries) := List.foldl_concat _ _ _ _
    rw [hsnoc]
    exact ViewTracker.latest_iff_any hlive hfollows now entries

/-- The post comes into view and leaves before the callback runs. -/
def passedBy : List (Entry ℚ) := [⟨true, 1⟩, ⟨false, 0⟩]

/-- Batches of two entries: the post stays in view, and then it leaves and comes back. -/
def stays : List (Entry ℚ) := [⟨true, 1 / 2⟩, ⟨true, 1⟩]

def comesBack : List (Entry ℚ) := [⟨false, 0⟩, ⟨true, 1⟩]

/-- After a batch whose entries are alike both trackers are in the state of the last one; a post that has
    left and come back is lost to the detail page, which looks at the first entry, and not to the feed. -/
theorem follows_latest_batches :
    DetailFollows ⟨⟨"post", none, none, none, none⟩, none, 10000⟩ true [((0 : ℚ), .intersect stays)]
      ∧ ¬ DetailFollows ⟨⟨"post", none, none, none, none⟩, none, 10000⟩ true
        [((0 : ℚ), .intersect comesBack)]
      ∧ FeedFollows ⟨⟨"post", none, none, none, none⟩, 10000⟩ true [((0 : ℚ), .intersect comesBack)] := by
  obtain ⟨hstays, -⟩ := follows_latest_iff ⟨⟨"post", none, none, none, none⟩, none, 10000⟩
    ⟨⟨"post", none, none, none, none⟩, 10000⟩ true [((0 : ℚ), .intersect stays)] [] (by simp [stays])
  obtain ⟨hback, hfeed⟩ := follows_latest_iff ⟨⟨"post", none, none, none, none⟩, none, 10000⟩
    ⟨⟨"post", none, none, none, none⟩, 10000⟩ true [((0 : ℚ), .intersect comesBack)]
    [((0 : ℚ), .intersect comesBack)] (by simp [comesBack])
  refine ⟨hstays.mpr ?_, fun h => ?_, hfeed.mpr ?_⟩
  · exact atCallbacks_single (by simp) (by decide +kernel)
  · exact absurd (hback.mp h [] 0 comesBack [] rfl nofun) (by decide +kernel)
  · exact atCallbacks_single (by simp) (by decide +kernel)

/-- Both trackers go on counting a post that has left the viewport; the detail page sends the time. -/
theorem passed_by_is_counted :
    ¬ DetailFollows ⟨⟨"post", none, none, none, none⟩, none, 10000⟩ true [((0 : ℚ), .intersect passedBy)]
      ∧ ¬ FeedFollows ⟨⟨"post", none, none, none, none⟩, 10000⟩ true [((0 : ℚ), .intersect passedBy)]
      ∧ DetailRead.dwells (DetailRead.run ⟨⟨"post", none, none, none, none⟩, none, 10000⟩ (.start true)
        [((0 : ℚ), .intersect passedBy), (5000, .destroy)]).calls = [5000] := by
  refine ⟨fun h => ?_, fun h => ?_, by decide +kernel⟩
  · have hfirst := (h [] 0 passedBy [] rfl nofun).1
    exact absurd hfirst (by decide +kernel)
  · have hany := (h [] 0 passedBy [] rfl nofun).1
    exact absurd hany (by decide +kernel)

end Oecophylla.Frontend.Visibility
