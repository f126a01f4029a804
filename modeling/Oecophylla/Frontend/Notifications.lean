import Oecophylla.Lib.Run
import Mathlib.Tactic.Common

namespace Oecophylla.Frontend.Notifications

/-!
# The notifications of a session — `lib/stores/notifications.ts`

The layout calls `initNotifications` and `subscribeSSE` when a viewer signs in, and the function that
`subscribeSSE` returned when the viewer leaves: it closes the stream and resets the store.  Requests
that were sent before are still answered afterwards.

* `step` — a call of the module, an event of the stream, the timer, or the answer to a request;
* `noCross_step` — what one action does to the store, against when its request was sent;
* `noCross_iff` — no answer to a request from before a reset changes the store, exactly where each
  of them finds the store as it would leave it.
-/

/-! ### The store -/

/-- `Notification`, as far as the store looks at it. -/
structure Notification where
  id : String
  read : Bool
  deriving DecidableEq, Repr

/-- `NotificationsState`. -/
structure NotificationsState where
  items : List Notification := []
  unread : Int := 0
  connected : Bool := false
  loading : Bool := false
  unavailable : Bool := false
  deriving DecidableEq, Repr

namespace NotificationsState

/-- What `markNotificationAsRead(id)` makes of the store. -/
def markRead (s : NotificationsState) (id : String) : NotificationsState :=
  let wasUnread := s.items.any fun item => item.id == id && !item.read
  { s with
    items := s.items.map fun item => if item.id = id then { item with read := true } else item
    unread := if wasUnread then max 0 (s.unread - 1) else s.unread }

/-- What `markAllNotificationsAsRead()` makes of the store. -/
def markAllRead (s : NotificationsState) : NotificationsState :=
  { s with items := s.items.map fun item => { item with read := true }, unread := 0 }

/-- A notification of the stream, unless the store has it. -/
def receive (s : NotificationsState) (item : Notification) : NotificationsState :=
  if s.items.any (·.id == item.id) then s
  else { s with
    items := (item :: s.items).take 20
    unread := s.unread + if item.read then 0 else 1 }

end NotificationsState

/-! ### The module -/

/-- What the module asks the server. -/
inductive Request where
  /-- `listNotifications` and `getNotificationUnreadCount`, together. -/
  | init
  /-- `getNotificationUnreadCount`, of `probeNotifications`. -/
  | probe
  | markRead (id : String)
  /-- `getNotificationUnreadCount`, of `markNotificationAsRead`. -/
  | unreadCount
  | markAll
  deriving DecidableEq, Repr

/-- What comes of a request. -/
inductive Answer where
  | listed (items : List Notification) (count : Int)
  | count (count : Int)
  | done
  /-- The status of an `ApiException`, none for another error. -/
  | failed (status : Option Nat)
  deriving DecidableEq, Repr

/-- `isServiceUnavailable(error)`. -/
def isServiceUnavailable (status : Option Nat) : Bool :=
  match status with
  | some status => [404, 500, 502, 503].contains status
  | none => false

/-- A request without an answer, and how often the store had been reset when it was sent. -/
structure Pending where
  request : Request
  resets : Nat
  deriving DecidableEq, Repr

/-- The function that `subscribeSSE` returns. -/
inductive Handle where
  /-- While there was a stream, `() => closeStream()`. -/
  | closeStream
  | unsubscribe
  deriving DecidableEq, Repr

/-- A change of the store by an answer or an event of a stream: how often the store had been reset
    when the request was sent, and when the answer came. -/
structure Change where
  sent : Nat
  answered : Nat
  deriving DecidableEq, Repr

/-- The variables of the module, and what goes on around it. -/
structure Client where
  store : NotificationsState := {}
  initialized : Bool := false
  /-- The stream, by the resets before it was opened. -/
  stream : Option Nat := none
  /-- The delay of the timer that is set. -/
  reconnectTimer : Option Nat := none
  reconnectDelay : Nat := 1000
  active : Bool := false
  recovering : Bool := false
  pending : List Pending := []
  handles : List Handle := []
  resets : Nat := 0
  changes : List Change := []
  deriving DecidableEq, Repr

/-- An event of the stream; the data of a notification may be unreadable. -/
inductive StreamEvent where
  | opened
  | heartbeat
  | notification (data : Option Notification)
  | error
  deriving DecidableEq, Repr

/-- What happens to the module. -/
inductive Action where
  | initNotifications
  | subscribeSSE
  /-- The function that the `i`-th `subscribeSSE` returned is called. -/
  | unsubscribe (i : Nat)
  | markNotificationAsRead (id : String)
  | markAllNotificationsAsRead
  | timer
  | event (event : StreamEvent)
  /-- The `k`-th of the requests without an answer is answered. -/
  | respond (k : Nat) (answer : Answer)
  deriving DecidableEq, Repr

namespace Client

/-- A request is sent. -/
def send (c : Client) (request : Request) : Client :=
  { c with pending := c.pending ++ [⟨request, c.resets⟩] }

/-- `setDisconnected(unavailable)`. -/
def setDisconnected (c : Client) (unavailable : Bool) : Client :=
  { c with store := { c.store with connected := false, unavailable } }

/-- `scheduleReconnect()`. -/
def scheduleReconnect (c : Client) : Client :=
  if c.reconnectTimer.isSome ∨ c.active = false then c
  else { c with
    reconnectTimer := some c.reconnectDelay
    reconnectDelay :=
      if c.reconnectDelay = 1000 then 2000 else if c.reconnectDelay = 2000 then 5000 else 10000 }

/-- `openStream()`. -/
def openStream (c : Client) : Client :=
  if c.stream.isSome ∨ c.active = false then c else { c with stream := some c.resets }

/-- `initNotifications()`, up to its requests. -/
def initNotifications (c : Client) : Client :=
  if c.initialized then c
  else { c with initialized := true, store := { c.store with loading := true } }.send .init

/-- `recoverStream()`, up to its request. -/
def recoverStream (c : Client) : Client :=
  if c.recovering ∨ c.active = false then c else { c with recovering := true }.send .probe

/-- `recoverStream()` after its probe. -/
def recovered (c : Client) (ready : Bool) : Client :=
  { if c.active = false ∨ ready = false then c else c.scheduleReconnect with recovering := false }

/-- `subscribeSSE()`. -/
def subscribeSSE (c : Client) : Client :=
  if c.stream.isSome then { c with handles := c.handles ++ [.closeStream] }
  else
    let started := { c with active := true }
    let opened := if c.store.unavailable then started else started.openStream
    { opened with handles := c.handles ++ [.unsubscribe] }

/-- The reset. -/
def unsubscribe (c : Client) : Client :=
  { c with
    active := false
    recovering := false
    reconnectTimer := none
    stream := none
    initialized := false
    store := {}
    resets := c.resets + 1 }

/-- What the stream tells the store. -/
def receive (c : Client) : StreamEvent → Client
  | .opened => { c with
      reconnectDelay := 1000
      store := { c.store with connected := true, unavailable := false } }
  | .heartbeat => c
  | .notification none => c
  | .notification (some item) => { c with store := c.store.receive item }
  | .error => ({ c with stream := none }.setDisconnected c.store.unavailable).recoverStream

/-- A call goes on when its request is answered; none where this is no answer to it. -/
def resume (c : Client) : Request → Answer → Option Client
  | .init, .listed items count => some { c with store := ⟨items, count, false, false, false⟩ }
  | .init, .failed status =>
    some { c with store := ⟨[], 0, false, false, isServiceUnavailable status⟩ }
  | .probe, .count _ =>
    some ({ c with store := { c.store with unavailable := false } }.recovered true)
  | .probe, .failed status =>
    if isServiceUnavailable status then some ((c.setDisconnected true).recovered false)
    else some (c.recovered true)
  | .markRead id, .done =>
    if c.store.items.any (·.id == id) then some { c with store := c.store.markRead id }
    else some (c.send .unreadCount)
  | .unreadCount, .count count => some { c with store := { c.store with unread := count } }
  | .markAll, .done => some { c with store := c.store.markAllRead }
  -- the error is that of the call
  | .markRead _, .failed _ => some c
  | .unreadCount, .failed _ => some c
  | .markAll, .failed _ => some c
  | _, _ => none

/-- The change that an answer has made, if any; `before` is the store that it found. -/
def noted (c : Client) (before : NotificationsState) (sent : Nat) : Client :=
  if c.store = before then c else { c with changes := c.changes ++ [⟨sent, c.resets⟩] }

/-- One action. -/
def step (c : Client) : Action → Option Client
  | .initNotifications => some c.initNotifications
  | .subscribeSSE => some c.subscribeSSE
  | .unsubscribe i =>
    match c.handles[i]? with
    | none => none
    | some .closeStream => some { c with stream := none }
    | some .unsubscribe => some c.unsubscribe
  | .markNotificationAsRead id => some (c.send (.markRead id))
  | .markAllNotificationsAsRead => some (c.send .markAll)
  | .timer =>
    if c.reconnectTimer.isSome then some { c with reconnectTimer := none }.openStream else none
  -- a stream that was closed has no more events
  | .event event => c.stream.map fun sent => (c.receive event).noted c.store sent
  | .respond k answer =>
    match c.pending[k]? with
    | none => none
    | some p =>
      (resume { c with pending := c.pending.eraseIdx k } p.request answer).map fun resumed =>
        resumed.noted c.store p.resets

/-- No answer has changed the store after a reset that its request was sent before. -/
def NoCross (c : Client) : Prop := ∀ change ∈ c.changes, change.sent = change.answered

instance (c : Client) : Decidable c.NoCross := inferInstanceAs (Decidable (∀ change ∈ c.changes, _))

end Client

/-- The store is as the answer leaves it. -/
def Settled (s : NotificationsState) : Request → Answer → Prop
  | .init, .listed items count => s = ⟨items, count, false, false, false⟩
  | .init, .failed status => s = ⟨[], 0, false, false, isServiceUnavailable status⟩
  | .probe, .count _ => s.unavailable = false
  | .probe, .failed status =>
    isServiceUnavailable status = true → s.connected = false ∧ s.unavailable = true
  | .markRead id, .done => ∀ item ∈ s.items, item.id = id → item.read = true
  | .unreadCount, .count count => s.unread = count
  | .markAll, .done => (∀ item ∈ s.items, item.read = true) ∧ s.unread = 0
  | _, _ => True

instance (s : NotificationsState) (request : Request) (answer : Answer) :
    Decidable (Settled s request answer) := by
  unfold Settled
  split <;> infer_instance

/-- The answer is to a request since the last reset, or finds the store settled. -/
def Client.KeepsApart (c : Client) : Action → Prop
  | .respond k answer => ∀ p ∈ c.pending[k]?, p.resets = c.resets ∨ Settled c.store p.request answer
  | _ => True

instance (c : Client) (a : Action) : Decidable (c.KeepsApart a) := by
  unfold Client.KeepsApart
  split <;> infer_instance

/-! ### What an answer changes -/

private theorem map_eq_self_iff {α : Type} {f : α → α} {l : List α} :
    l.map f = l ↔ ∀ a ∈ l, f a = a := by
  conv_lhs => rw [← List.map_id l, List.map_map]
  exact List.map_eq_map_iff

theorem markRead_eq_self_iff {s : NotificationsState} {id : String} :
    s.markRead id = s ↔ ∀ item ∈ s.items, item.id = id → item.read = true := by
  constructor
  · intro h item hitem hid
    have hitems : s.items.map (fun item => if item.id = id then { item with read := true } else item)
        = s.items := congrArg NotificationsState.items h
    have hsame := map_eq_self_iff.mp hitems item hitem
    rw [if_pos hid] at hsame
    rw [← hsame]
  · intro hread
    have hitems : s.items.map (fun item => if item.id = id then { item with read := true } else item)
        = s.items := by
      refine map_eq_self_iff.mpr fun item hitem => ?_
      split
      · next hid => rw [← hread item hitem hid]
      · rfl
    -- nothing with this id is unread, so the count stays
    have hunread : (s.items.any fun item => item.id == id && !item.read) = false := by
      rw [List.any_eq_false]
      intro item hitem
      by_cases hid : item.id = id
      · simp [hread item hitem hid]
      · simp [hid]
    unfold NotificationsState.markRead
    dsimp only
    rw [hitems, hunread]
    rfl

theorem markAllRead_eq_self_iff {s : NotificationsState} :
    s.markAllRead = s ↔ (∀ item ∈ s.items, item.read = true) ∧ s.unread = 0 := by
  have hitems : s.items.map (fun item => { item with read := true }) = s.items
      ↔ ∀ item ∈ s.items, item.read = true := by
    rw [map_eq_self_iff]
    refine forall₂_congr fun item _ => ?_
    exact ⟨fun h => by rw [← h], fun h => by rw [← h]⟩
  rw [← hitems]
  constructor
  · intro h
    exact ⟨congrArg NotificationsState.items h, (congrArg NotificationsState.unread h).symm⟩
  · rintro ⟨hsame, hunread⟩
    unfold NotificationsState.markAllRead
    rw [hsame, ← hunread]

namespace Client

variable {c d : Client}

@[simp] theorem store_send (request : Request) : (c.send request).store = c.store := rfl

@[simp] theorem store_scheduleReconnect : c.scheduleReconnect.store = c.store := by
  unfold scheduleReconnect
  split <;> rfl

@[simp] theorem store_recovered (ready : Bool) : (c.recovered ready).store = c.store := by
  unfold recovered
  split
  · rfl
  · exact store_scheduleReconnect

/-- **The answer** leaves the store as it is exactly where it was settled. -/
theorem store_resume_eq_iff {request : Request} {answer : Answer}
    (h : c.resume request answer = some d) : d.store = c.store ↔ Settled c.store request answer := by
  unfold resume at h
  split at h
  · -- the list that was loaded, and its count
    rw [← Option.some.inj h]
    exact eq_comm
  · -- the empty list, after an error
    rw [← Option.some.inj h]
    exact eq_comm
  · -- a probe that succeeds only clears `unavailable`
    rw [← Option.some.inj h, store_recovered]
    show { c.store with unavailable := false } = c.store ↔ c.store.unavailable = false
    exact ⟨fun h => (congrArg NotificationsState.unavailable h).symm, fun h => by rw [← h]⟩
  · next status =>
    show _ ↔ (isServiceUnavailable status = true → _)
    split at h
    · next hunavailable =>
      rw [← Option.some.inj h, store_recovered]
      show { c.store with connected := false, unavailable := true } = c.store ↔ _
      refine ⟨fun h _ => ⟨?_, ?_⟩, fun h => ?_⟩
      · exact (congrArg NotificationsState.connected h).symm
      · exact (congrArg NotificationsState.unavailable h).symm
      · obtain ⟨hconnected, hstore⟩ := h hunavailable
        rw [← hconnected, ← hstore]
    · next havailable =>
      rw [← Option.some.inj h, store_recovered]
      exact iff_of_true rfl fun hunavailable => absurd hunavailable havailable
  · next id =>
    split at h
    · rw [← Option.some.inj h]
      exact markRead_eq_self_iff
    · next hnone =>
      rw [← Option.some.inj h, store_send]
      refine iff_of_true rfl fun item hitem hid => absurd ?_ hnone
      exact List.any_eq_true.mpr ⟨item, hitem, beq_iff_eq.mpr hid⟩
  · next count =>
    rw [← Option.some.inj h]
    show { c.store with unread := count } = c.store ↔ c.store.unread = count
    exact ⟨fun h => (congrArg NotificationsState.unread h).symm, fun h => by rw [← h]⟩
  · rw [← Option.some.inj h]
    exact markAllRead_eq_self_iff
  · rw [← Option.some.inj h]
    exact iff_of_true rfl trivial
  · rw [← Option.some.inj h]
    exact iff_of_true rfl trivial
  · rw [← Option.some.inj h]
    exact iff_of_true rfl trivial
  · cases h

/-! ### What stays as it is -/

/-- The stream was opened since the last reset. -/
def Sound (c : Client) : Prop := ∀ sent ∈ c.stream, sent = c.resets

/-- Two clients with the same stream, resets and changes. -/
def Frame (c d : Client) : Prop :=
  d.stream = c.stream ∧ d.resets = c.resets ∧ d.changes = c.changes

/-- The changes alone say whether an answer has crossed. -/
theorem noCross_congr (h : d.changes = c.changes) : d.NoCross ↔ c.NoCross := by
  unfold NoCross
  rw [h]

theorem Frame.sound (hframe : Frame c d) (h : c.Sound) : d.Sound := by
  obtain ⟨hstream, hresets, -⟩ := hframe
  unfold Sound
  rw [hstream, hresets]
  exact h

theorem frame_scheduleReconnect : Frame c c.scheduleReconnect := by
  unfold scheduleReconnect
  split <;> exact ⟨rfl, rfl, rfl⟩

theorem frame_recovered (ready : Bool) : Frame c (c.recovered ready) := by
  unfold recovered
  split
  · exact ⟨rfl, rfl, rfl⟩
  · exact frame_scheduleReconnect

theorem frame_recoverStream : Frame c c.recoverStream := by
  unfold recoverStream
  split <;> exact ⟨rfl, rfl, rfl⟩

theorem frame_initNotifications : Frame c c.initNotifications := by
  unfold initNotifications
  split <;> exact ⟨rfl, rfl, rfl⟩

theorem frame_resume {request : Request} {answer : Answer} (h : c.resume request answer = some d) :
    Frame c d := by
  unfold resume at h
  split at h
  · rw [← Option.some.inj h]
    exact ⟨rfl, rfl, rfl⟩
  · rw [← Option.some.inj h]
    exact ⟨rfl, rfl, rfl⟩
  · rw [← Option.some.inj h]
    exact frame_recovered _
  · split at h
    · rw [← Option.some.inj h]
      exact frame_recovered _
    · rw [← Option.some.inj h]
      exact frame_recovered _
  · split at h <;> rw [← Option.some.inj h] <;> exact ⟨rfl, rfl, rfl⟩
  · rw [← Option.some.inj h]
    exact ⟨rfl, rfl, rfl⟩
  · rw [← Option.some.inj h]
    exact ⟨rfl, rfl, rfl⟩
  · rw [← Option.some.inj h]
    exact ⟨rfl, rfl, rfl⟩
  · rw [← Option.some.inj h]
    exact ⟨rfl, rfl, rfl⟩
  · rw [← Option.some.inj h]
    exact ⟨rfl, rfl, rfl⟩
  · cases h

/-- `openStream` opens a stream of the present session. -/
theorem openStream_cases : c.openStream = c ∨ c.openStream = { c with stream := some c.resets } := by
  unfold openStream
  split
  · exact Or.inl rfl
  · exact Or.inr rfl

theorem sound_openStream (h : c.Sound) : c.openStream.Sound := by
  rcases openStream_cases (c := c) with hsame | hopened
  · rw [hsame]
    exact h
  · rw [hopened]
    intro sent hsent
    exact (Option.mem_some_iff.mp hsent).symm

/-- An event keeps the stream or closes it. -/
theorem receive_frame (event : StreamEvent) :
    ((c.receive event).stream = c.stream ∨ (c.receive event).stream = none)
      ∧ (c.receive event).resets = c.resets ∧ (c.receive event).changes = c.changes := by
  cases event with
  | opened => exact ⟨Or.inl rfl, rfl, rfl⟩
  | heartbeat => exact ⟨Or.inl rfl, rfl, rfl⟩
  | notification data => cases data <;> exact ⟨Or.inl rfl, rfl, rfl⟩
  | error =>
    -- the stream is closed before it is recovered
    obtain ⟨hstream, hresets, hchanges⟩ := frame_recoverStream
      (c := { c with stream := none }.setDisconnected c.store.unavailable)
    exact ⟨Or.inr hstream, hresets, hchanges⟩

@[simp] theorem stream_noted (before : NotificationsState) (sent : Nat) :
    (c.noted before sent).stream = c.stream := by
  unfold noted
  split <;> rfl

@[simp] theorem resets_noted (before : NotificationsState) (sent : Nat) :
    (c.noted before sent).resets = c.resets := by
  unfold noted
  split <;> rfl

/-- An answer crosses exactly when it has changed the store and its request is from before a reset. -/
theorem noCross_noted_iff {before : NotificationsState} {sent : Nat} :
    (c.noted before sent).NoCross ↔ c.NoCross ∧ (sent = c.resets ∨ c.store = before) := by
  unfold noted
  split
  · next hsame => exact ⟨fun h => ⟨h, Or.inr hsame⟩, And.left⟩
  · next hchanged =>
    unfold NoCross
    rw [List.forall_mem_append, List.forall_mem_singleton]
    exact and_congr_right fun _ => (or_iff_left hchanged).symm

/-! ### Runs -/

/-- Every action leaves a stream of the present session. -/
theorem sound_step {a : Action} (h : c.Sound) (hd : c.step a = some d) : d.Sound := by
  cases a with
  | initNotifications =>
    rw [← Option.some.inj hd]
    exact frame_initNotifications.sound h
  | subscribeSSE =>
    rw [← Option.some.inj hd]
    unfold subscribeSSE
    split
    · exact h
    · dsimp only
      split
      · exact h
      · exact sound_openStream (c := { c with active := true }) h
  | unsubscribe i =>
    -- neither function leaves a stream
    unfold step at hd
    dsimp only at hd
    split at hd
    · cases hd
    · rw [← Option.some.inj hd]
      exact nofun
    · rw [← Option.some.inj hd]
      exact nofun
  | markNotificationAsRead id =>
    rw [← Option.some.inj hd]
    exact h
  | markAllNotificationsAsRead =>
    rw [← Option.some.inj hd]
    exact h
  | timer =>
    unfold step at hd
    dsimp only at hd
    split at hd
    · rw [← Option.some.inj hd]
      exact sound_openStream (c := { c with reconnectTimer := none }) h
    · cases hd
  | event event =>
    obtain ⟨sent, -, rfl⟩ := Option.map_eq_some_iff.mp hd
    obtain ⟨hstream, hresets, -⟩ := receive_frame (c := c) event
    unfold Sound
    rw [stream_noted, resets_noted, hresets]
    -- an error closes the stream, every other event keeps it
    rcases hstream with hsame | hnone
    · rw [hsame]
      exact h
    · rw [hnone]
      exact nofun
  | respond k answer =>
    unfold step at hd
    dsimp only at hd
    split at hd
    · cases hd
    · obtain ⟨resumed, hresumed, rfl⟩ := Option.map_eq_some_iff.mp hd
      unfold Sound
      rw [stream_noted, resets_noted]
      exact (frame_resume hresumed).sound h

/-- **One action** lets no answer cross a reset exactly where it keeps the sessions apart. -/
theorem noCross_step {a : Action} (h : c.Sound) (hcross : c.NoCross) (hd : c.step a = some d) :
    d.NoCross ↔ c.KeepsApart a := by
  cases a with
  | initNotifications =>
    refine iff_of_true ?_ trivial
    rw [← Option.some.inj hd]
    exact (noCross_congr frame_initNotifications.2.2).mpr hcross
  | subscribeSSE =>
    refine iff_of_true ?_ trivial
    rw [← Option.some.inj hd]
    unfold subscribeSSE
    split
    · exact hcross
    · dsimp only
      split
      · exact hcross
      · rcases openStream_cases (c := { c with active := true }) with hsame | hopened
        · rw [hsame]
          exact hcross
        · rw [hopened]
          exact hcross
  | unsubscribe i =>
    refine iff_of_true ?_ trivial
    unfold step at hd
    dsimp only at hd
    split at hd
    · cases hd
    · rw [← Option.some.inj hd]
      exact hcross
    · rw [← Option.some.inj hd]
      exact hcross
  | markNotificationAsRead id =>
    rw [← Option.some.inj hd]
    exact iff_of_true hcross trivial
  | markAllNotificationsAsRead =>
    rw [← Option.some.inj hd]
    exact iff_of_true hcross trivial
  | timer =>
    refine iff_of_true ?_ trivial
    unfold step at hd
    dsimp only at hd
    split at hd
    · rcases openStream_cases (c := { c with reconnectTimer := none }) with hsame | hopened
      · rw [← Option.some.inj hd, hsame]
        exact hcross
      · rw [← Option.some.inj hd, hopened]
        exact hcross
    · cases hd
  | event event =>
    refine iff_of_true ?_ trivial
    obtain ⟨sent, hsent, rfl⟩ := Option.map_eq_some_iff.mp hd
    obtain ⟨-, hresets, hchanges⟩ := receive_frame (c := c) event
    rw [noCross_noted_iff]
    refine ⟨?_, Or.inl ?_⟩
    · exact (noCross_congr hchanges).mpr hcross
    · -- the reset would have closed the stream
      rw [hresets]
      exact h sent hsent
  | respond k answer =>
    unfold step at hd
    dsimp only at hd
    split at hd
    · cases hd
    · next p hp =>
      obtain ⟨resumed, hresumed, rfl⟩ := Option.map_eq_some_iff.mp hd
      obtain ⟨-, hresets, hchanges⟩ := frame_resume hresumed
      have hkept : resumed.NoCross := (noCross_congr hchanges).mpr hcross
      have hstore : resumed.store = c.store ↔ Settled c.store p.request answer :=
        store_resume_eq_iff (c := { c with pending := c.pending.eraseIdx k }) hresumed
      -- the change is noted exactly where the answer does not find the store settled
      rw [noCross_noted_iff, and_iff_right hkept, hresets, hstore]
      show _ ↔ ∀ p ∈ c.pending[k]?, p.resets = c.resets ∨ Settled c.store p.request answer
      rw [hp]
      simp

/-- **Answers that cross a reset.**  Over every run of the module, no answer to a request from before
    a reset changes the store after it, exactly where every such answer finds the store as it would
    leave it. -/
theorem noCross_iff {as : List Action} {c : Client} (hrun : Lib.run step {} as = some c) :
    (∀ before d, before <+: as → Lib.run step {} before = some d → d.NoCross)
      ↔ Lib.Along step KeepsApart {} as :=
  Lib.forall_prefix_iff_along (I := Sound) (fun _ _ _ h _ hd => sound_step h hd)
    (fun _ _ _ h hcross hd => noCross_step h hcross hd) nofun nofun hrun

/-- A viewer opens an old notification and signs out before its unread count has come; the next viewer
    signs in and has no notifications. -/
def signedOut : List Action :=
  [.initNotifications, .respond 0 (.listed [⟨"new", false⟩] 8), .subscribeSSE, .event .opened,
    .markNotificationAsRead "old", .respond 0 .done, .unsubscribe 0, .initNotifications,
    .respond 1 (.listed [] 0), .subscribeSSE, .respond 0 (.count 7)]

/-- The next viewer sees the unread count of the one who left. -/
theorem crosses_after_sign_out :
    (∃ c, Lib.run step {} signedOut = some c ∧ c.store.unread = 7)
      ∧ ¬ ∀ before d, before <+: signedOut → Lib.run step {} before = some d → d.NoCross := by
  have hrun : ∃ c, Lib.run step {} signedOut = some c ∧ c.store.unread = 7 ∧ ¬ c.NoCross := by
    refine ⟨_, rfl, rfl, ?_⟩
    decide
  obtain ⟨c, hc, hunread, hcrosses⟩ := hrun
  exact ⟨⟨c, hc, hunread⟩, fun h => hcrosses (h signedOut c List.prefix_rfl hc)⟩

/-- The viewer who waits for the answer before signing out. -/
theorem noCross_of_waiting :
    (∃ c, Lib.run step {} (signedOut.take 6 ++ [.respond 0 (.count 7), .unsubscribe 0]) = some c)
      ∧ ∀ before d, before <+: signedOut.take 6 ++ [.respond 0 (.count 7), .unsubscribe 0] →
        Lib.run step {} before = some d → d.NoCross := by
  have hrun : ∃ c, Lib.run step {} (signedOut.take 6 ++ [.respond 0 (.count 7), .unsubscribe 0])
      = some c := ⟨_, rfl⟩
  refine ⟨hrun, ?_⟩
  obtain ⟨c, hc⟩ := hrun
  -- the only answer after the mark comes before the sign-out
  exact (noCross_iff hc).mpr (by decide)

end Client

end Oecophylla.Frontend.Notifications
